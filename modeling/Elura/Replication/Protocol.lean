import Elura.Basis.Rust

/-!
Messages of the entity replication protocol and their meaning on an entity
table. `applyEvent` says what one event does to a table and `Admissible` when a
receiver has to accept it; both are stated without any buffering.
-/

namespace Elura.Replication

open Std (ExtTreeMap TransOrd)

inductive ReplicationError
  | invalidConfig (message : String)
  | invalidOrder (message : String)
  | invalidPacket (message : String)
  | historyFull
  | sequenceExhausted
  | invalidAcknowledgement
  | entityLimitExceeded
  | versionRegression
  | baselineMismatch
  | deltaRejected
  deriving DecidableEq, Repr

structure ReplicationConfig where
  historyCapacity : Nat
  redundancy : Nat
  maxEventsPerBatch : Nat
  maxEntities : Nat
  reorderWindow : Nat
  deriving DecidableEq, Repr

def ReplicationConfig.default : ReplicationConfig where
  historyCapacity := 64
  redundancy := 3
  maxEventsPerBatch := 256
  maxEntities := 4096
  reorderWindow := 256

def ReplicationConfig.validate (config : ReplicationConfig) : Except ReplicationError Unit :=
  if config.historyCapacity = 0 then
    .error (.invalidConfig "batch history capacity must be positive")
  else if config.redundancy = 0 ∨ config.historyCapacity < config.redundancy then
    .error (.invalidConfig "batch redundancy must be within history capacity")
  else if config.maxEventsPerBatch = 0 then
    .error (.invalidConfig "maximum events per batch must be positive")
  else if config.maxEntities = 0 then
    .error (.invalidConfig "maximum replicated entities must be positive")
  else if config.reorderWindow = 0 then
    .error (.invalidConfig "batch reorder window must be positive")
  else if u64Max < config.historyCapacity ∨ config.reorderWindow < config.historyCapacity then
    .error (.invalidConfig "batch reorder window must cover sender history")
  else
    .ok ()

structure ReplicationConfig.Valid (config : ReplicationConfig) : Prop where
  redundancyPositive : 0 < config.redundancy
  redundancyBound : config.redundancy ≤ config.historyCapacity
  eventsPositive : 0 < config.maxEventsPerBatch
  windowPositive : 0 < config.reorderWindow
  windowCovers : config.historyCapacity ≤ config.reorderWindow

theorem ReplicationConfig.valid_of_validate {config : ReplicationConfig}
    (checked : config.validate = .ok ()) : config.Valid := by
  simp only [ReplicationConfig.validate] at checked
  split_ifs at checked
  constructor <;> omega

example : ReplicationConfig.default.validate = .ok () := by decide

structure PredictionKey where
  value : Nat
  deriving DecidableEq, Repr

structure VersionedState (S : Type) where
  version : Nat
  predictionKey : Option PredictionKey
  state : S
  deriving DecidableEq, Repr

inductive ReplicationEvent (I S D : Type)
  | spawn (entity : I) (version : Nat) (predictionKey : Option PredictionKey) (state : S)
  | despawn (entity : I)
  | update (entity : I) (baseVersion version : Nat) (delta : D)
  | keyframe (entity : I) (version : Nat) (predictionKey : Option PredictionKey) (state : S)
  deriving DecidableEq, Repr

def ReplicationEvent.entity {I S D : Type} : ReplicationEvent I S D → I
  | .spawn entity _ _ _ => entity
  | .despawn entity => entity
  | .update entity _ _ _ => entity
  | .keyframe entity _ _ _ => entity

structure ReplicationBatch (I S D : Type) where
  sequence : Nat
  tick : Nat
  events : List (ReplicationEvent I S D)
  deriving DecidableEq, Repr

structure ReplicationPacket (I S D : Type) where
  batches : List (ReplicationBatch I S D)
  deriving DecidableEq, Repr

structure ReplicationAck where
  acknowledgedSequence : Nat
  appliedTick : Nat
  deriving DecidableEq, Repr

section Meaning

variable {I S D : Type} [Ord I] [TransOrd I]

abbrev EntityTable (I S : Type) [Ord I] := ExtTreeMap I (VersionedState S)

/-- What an event means for the entity table of its observer. -/
def applyEvent (applyDelta : I → S → D → Option S) (table : EntityTable I S) :
    ReplicationEvent I S D → EntityTable I S
  | .spawn entity version predictionKey state =>
    table.insert entity { version, predictionKey, state }
  | .despawn entity => table.erase entity
  | .update entity _ version delta =>
    match table[entity]? with
    | none => table
    | some current =>
      match applyDelta entity current.state delta with
      | none => table
      | some state =>
        table.insert entity { version, predictionKey := current.predictionKey, state }
  | .keyframe entity version predictionKey state =>
    table.insert entity { version, predictionKey, state }

def applyEvents (applyDelta : I → S → D → Option S) (table : EntityTable I S)
    (events : List (ReplicationEvent I S D)) : EntityTable I S :=
  events.foldl (applyEvent applyDelta) table

def applyBatches (applyDelta : I → S → D → Option S)
    (batches : List (ReplicationBatch I S D)) : EntityTable I S :=
  applyEvents applyDelta ∅ (batches.flatMap (·.events))

/-- The conditions under which a receiver holding `table` accepts an event. -/
def Admissible (maxEntities : Nat) (applyDelta : I → S → D → Option S)
    (table : EntityTable I S) : ReplicationEvent I S D → Prop
  | .spawn entity _ _ _ => table[entity]? = none ∧ table.size < maxEntities
  | .despawn entity => (table[entity]?).isSome
  | .update entity baseVersion version delta =>
    baseVersion < version ∧ ∃ current, table[entity]? = some current ∧
      current.version = baseVersion ∧ (applyDelta entity current.state delta).isSome
  | .keyframe entity _ _ _ => (table[entity]?).isSome ∨ table.size < maxEntities

def AdmissibleRun (maxEntities : Nat) (applyDelta : I → S → D → Option S) :
    EntityTable I S → List (ReplicationEvent I S D) → Prop
  | _, [] => True
  | table, event :: rest =>
    Admissible maxEntities applyDelta table event ∧
      AdmissibleRun maxEntities applyDelta (applyEvent applyDelta table event) rest

@[simp] theorem applyEvents_nil (applyDelta : I → S → D → Option S) (table : EntityTable I S) :
    applyEvents applyDelta table [] = table := rfl

@[simp] theorem applyEvents_cons (applyDelta : I → S → D → Option S) (table : EntityTable I S)
    (event : ReplicationEvent I S D) (rest : List (ReplicationEvent I S D)) :
    applyEvents applyDelta table (event :: rest) =
      applyEvents applyDelta (applyEvent applyDelta table event) rest := rfl

theorem applyEvents_append (applyDelta : I → S → D → Option S) (table : EntityTable I S)
    (first second : List (ReplicationEvent I S D)) :
    applyEvents applyDelta table (first ++ second) =
      applyEvents applyDelta (applyEvents applyDelta table first) second := by
  simp [applyEvents]

theorem admissibleRun_append (maxEntities : Nat) (applyDelta : I → S → D → Option S)
    (table : EntityTable I S) (first second : List (ReplicationEvent I S D)) :
    AdmissibleRun maxEntities applyDelta table (first ++ second) ↔
      AdmissibleRun maxEntities applyDelta table first ∧
        AdmissibleRun maxEntities applyDelta (applyEvents applyDelta table first) second := by
  induction first generalizing table with
  | nil => simp [AdmissibleRun]
  | cons _ _ ih => simp [AdmissibleRun, ih, and_assoc]

theorem applyBatches_append (applyDelta : I → S → D → Option S)
    (first second : List (ReplicationBatch I S D)) :
    applyBatches applyDelta (first ++ second) =
      applyEvents applyDelta (applyBatches applyDelta first) (second.flatMap (·.events)) := by
  simp [applyBatches, applyEvents_append]

end Meaning

end Elura.Replication
