import Elura.Basis.OrderedMap
import Elura.Netcode.SequenceWindow
import Elura.Replication.Protocol

/-!
`ReplicationReceiver`: buffers reordered batches and applies every newly
contiguous batch. A packet is staged completely before anything is stored.
-/

namespace Elura.Replication

open Std (ExtTreeMap ExtTreeSet TransOrd LawfulEqOrd)
open Netcode (SequenceWindow SequenceDisposition)

structure ReplicationReceiveReport where
  appliedBatches : Nat
  appliedEvents : Nat
  duplicateBatches : Nat
  acknowledgement : ReplicationAck
  deriving DecidableEq, Repr

structure ReplicationReceiver (I S D : Type) [Ord I] where
  config : ReplicationConfig
  sequences : SequenceWindow
  pending : ExtTreeMap Nat (ReplicationBatch I S D)
  entities : EntityTable I S
  appliedTick : Nat

structure Staged (I S : Type) [Ord I] where
  changes : ExtTreeMap I (Option (VersionedState S))
  entityCount : Nat

structure Observation (I S D : Type) where
  sequences : SequenceWindow
  accepted : ExtTreeMap Nat (ReplicationBatch I S D)
  duplicateBatches : Nat

structure Application (I S D : Type) [Ord I] where
  accepted : ExtTreeMap Nat (ReplicationBatch I S D)
  staged : Staged I S
  nextTick : Nat
  appliedBatches : Nat
  appliedEvents : Nat

section Definitions

variable {I S D : Type} [Ord I] [TransOrd I]

def stagedEntity (entities : EntityTable I S) (changes : ExtTreeMap I (Option (VersionedState S)))
    (entity : I) : Option (VersionedState S) :=
  match changes[entity]? with
  | none => entities[entity]?
  | some staged => staged

def stageEvent (entities : EntityTable I S) (maxEntities : Nat)
    (applyDelta : I → S → D → Option S) (staged : Staged I S) :
    ReplicationEvent I S D → Except ReplicationError (Staged I S)
  | .spawn entity version predictionKey state =>
    if (stagedEntity entities staged.changes entity).isSome ∨
        maxEntities ≤ staged.entityCount then
      .error (if (stagedEntity entities staged.changes entity).isSome then
        .invalidPacket "spawned entity already exists"
      else .entityLimitExceeded)
    else .ok {
      changes := staged.changes.insert entity (some { version, predictionKey, state })
      entityCount := staged.entityCount + 1 }
  | .despawn entity =>
    if (stagedEntity entities staged.changes entity).isNone then
      .error (.invalidPacket "despawned entity does not exist")
    else .ok {
      changes := staged.changes.insert entity none
      entityCount := staged.entityCount - 1 }
  | .update entity baseVersion version delta =>
    match stagedEntity entities staged.changes entity with
    | none => .error .baselineMismatch
    | some current =>
      if current.version ≠ baseVersion ∨ version ≤ baseVersion then
        .error .baselineMismatch
      else
        match applyDelta entity current.state delta with
        | none => .error .deltaRejected
        | some state => .ok { staged with
            changes := staged.changes.insert entity
              (some { version, predictionKey := current.predictionKey, state }) }
  | .keyframe entity version predictionKey state =>
    let existed := (stagedEntity entities staged.changes entity).isSome
    if ¬existed ∧ maxEntities ≤ staged.entityCount then .error .entityLimitExceeded
    else .ok {
      changes := staged.changes.insert entity (some { version, predictionKey, state })
      entityCount := if existed then staged.entityCount else staged.entityCount + 1 }

def stageEvents (entities : EntityTable I S) (maxEntities : Nat)
    (applyDelta : I → S → D → Option S) :
    List (ReplicationEvent I S D) → ExtTreeSet I → Staged I S →
      Except ReplicationError (Staged I S)
  | [], _, staged => .ok staged
  | event :: rest, affected, staged =>
    if event.entity ∈ affected then
      .error (.invalidPacket "batch changes one entity more than once")
    else
      match stageEvent entities maxEntities applyDelta staged event with
      | .error error => .error error
      | .ok next =>
        stageEvents entities maxEntities applyDelta rest (affected.insert event.entity) next

def stageBatch (entities : EntityTable I S) (maxEntities : Nat)
    (applyDelta : I → S → D → Option S) (staged : Staged I S) (batch : ReplicationBatch I S D) :
    Except ReplicationError (Nat × Staged I S) :=
  (stageEvents entities maxEntities applyDelta batch.events ∅ staged).map (batch.events.length, ·)

def observeBatches (config : ReplicationConfig) : List (ReplicationBatch I S D) →
    Observation I S D → Except ReplicationError (Observation I S D)
  | [], seen => .ok seen
  | batch :: rest, seen =>
    if batch.tick = 0 ∨ config.maxEventsPerBatch < batch.events.length then
      .error (.invalidPacket "batch Tick or event count is invalid")
    else
      match (SequenceWindow.observe batch.sequence).call seen.sequences with
      | (.error _, _) =>
        .error (.invalidPacket "batch sequence exceeds the reorder window")
      | (.ok .duplicate, sequences) =>
        observeBatches config rest
          { seen with sequences, duplicateBatches := seen.duplicateBatches + 1 }
      | (.ok .accepted, sequences) =>
        observeBatches config rest
          { seen with sequences, accepted := seen.accepted.insert batch.sequence batch }

def applySequences (receiver : ReplicationReceiver I S D) (applyDelta : I → S → D → Option S) :
    List Nat → Application I S D → Except ReplicationError (Application I S D)
  | [], progress => .ok progress
  | sequence :: rest, progress =>
    match (progress.accepted[sequence]?).or receiver.pending[sequence]? with
    | none => .error (.invalidPacket "contiguous batch payload is missing")
    | some batch =>
      if batch.tick < progress.nextTick then
        .error (.invalidOrder "applied batch Tick moved backwards")
      else
        match stageBatch receiver.entities receiver.config.maxEntities applyDelta
            progress.staged batch with
        | .error error => .error error
        | .ok (events, staged) =>
          applySequences receiver applyDelta rest {
            accepted := progress.accepted.erase sequence
            staged
            nextTick := batch.tick
            appliedBatches := progress.appliedBatches + 1
            appliedEvents := progress.appliedEvents + events }

namespace ReplicationReceiver

def new (config : ReplicationConfig) : Except ReplicationError (ReplicationReceiver I S D) := do
  config.validate
  match SequenceWindow.new config.reorderWindow with
  | .error _ => throw (.invalidConfig "batch reorder window must be positive")
  | .ok sequences => return { config, sequences, pending := ∅, entities := ∅, appliedTick := 0 }

def store (receiver : ReplicationReceiver I S D) (seen : Observation I S D)
    (progress : Application I S D) : ReplicationReceiver I S D :=
  { receiver with
    entities := OrderedMap.overlay receiver.entities progress.staged.changes
    pending := receiver.pending.filter
      (fun sequence _ => seen.sequences.acknowledged < sequence) ∪ progress.accepted
    sequences := seen.sequences
    appliedTick := progress.nextTick }

def receive (packet : ReplicationPacket I S D) (applyDelta : I → S → D → Option S) :
    Fallible (ReplicationReceiver I S D) ReplicationError ReplicationReceiveReport := do
  let receiver ← get
  if receiver.config.redundancy < packet.batches.length then
    throw (.invalidPacket "packet contains too many redundant batches")
  let batches := packet.batches.insertionSort (fun left right => left.sequence ≤ right.sequence)
  let seen ← liftM (observeBatches receiver.config batches
    { sequences := receiver.sequences, accepted := ∅, duplicateBatches := 0 })
  let first := saturatingAdd receiver.sequences.acknowledged 1
  let progress ← liftM (applySequences receiver applyDelta
    (List.range' first (seen.sequences.acknowledged + 1 - first))
    { accepted := seen.accepted
      staged := { changes := ∅, entityCount := receiver.entities.size }
      nextTick := receiver.appliedTick
      appliedBatches := 0
      appliedEvents := 0 })
  set (receiver.store seen progress)
  return {
    appliedBatches := progress.appliedBatches
    appliedEvents := progress.appliedEvents
    duplicateBatches := seen.duplicateBatches
    acknowledgement := {
      acknowledgedSequence := seen.sequences.acknowledged
      appliedTick := progress.nextTick } }

def acknowledgedSequence (receiver : ReplicationReceiver I S D) : Nat :=
  receiver.sequences.acknowledged

end ReplicationReceiver

end Definitions

section Staging

variable {I S D : Type} [Ord I] [TransOrd I] [LawfulEqOrd I]
variable (entities : EntityTable I S)

def Staged.table (entities : EntityTable I S) (staged : Staged I S) : EntityTable I S :=
  OrderedMap.overlay entities staged.changes

def Staged.Counted (entities : EntityTable I S) (staged : Staged I S) : Prop :=
  staged.entityCount = (staged.table entities).size

theorem stagedEntity_eq (staged : Staged I S) (entity : I) :
    stagedEntity entities staged.changes entity = (staged.table entities)[entity]? := by
  rw [Staged.table, OrderedMap.getElem?_overlay]
  cases found : staged.changes[entity]? <;> simp [stagedEntity, found]

theorem stageEvent_spec (maxEntities : Nat)
    (applyDelta : I → S → D → Option S) (staged : Staged I S) (event : ReplicationEvent I S D)
    (counted : staged.Counted entities)
    (admissible : Admissible maxEntities applyDelta (staged.table entities) event) :
    ∃ next, stageEvent entities maxEntities applyDelta staged event = .ok next ∧
      next.table entities = applyEvent applyDelta (staged.table entities) event ∧
      next.Counted entities := by
  have inserted (entity : I) (state : VersionedState S) (count : Nat) :
      (Staged.mk (staged.changes.insert entity (some state)) count).table entities =
        (staged.table entities).insert entity state :=
    OrderedMap.overlay_insert entities staged.changes entity (some state)
  have erased (entity : I) (count : Nat) :
      (Staged.mk (staged.changes.insert entity none) count).table entities =
        (staged.table entities).erase entity :=
    OrderedMap.overlay_insert entities staged.changes entity none
  have counts : staged.entityCount = (staged.table entities).size := counted
  have contained (entity : I) : (staged.table entities).contains entity =
      ((staged.table entities)[entity]?).isSome :=
    ExtTreeMap.contains_eq_isSome_getElem?
  cases event with
  | spawn =>
    obtain ⟨absent, room⟩ := admissible
    have fits : ¬maxEntities ≤ staged.entityCount := by omega
    refine ⟨_, by simp [stageEvent, stagedEntity_eq, absent, fits]; rfl, inserted _ _ _, ?_⟩
    simp only [Staged.Counted, inserted, ExtTreeMap.size_insert, contained, absent]
    simpa using counts
  | despawn =>
    obtain ⟨current, found⟩ := Option.isSome_iff_exists.mp admissible
    refine ⟨_, by simp only [stageEvent, stagedEntity_eq, found]; rfl,
      erased _ _, ?_⟩
    simp only [Staged.Counted, erased, ExtTreeMap.size_erase, contained, found,
      Option.isSome_some, if_true]
    omega
  | update _ baseVersion version =>
    obtain ⟨newer, current, found, base, decoded⟩ := admissible
    obtain ⟨state, applied⟩ := Option.isSome_iff_exists.mp decoded
    have fits : ¬(current.version ≠ baseVersion ∨ version ≤ baseVersion) := by omega
    refine ⟨_, by simp only [stageEvent, stagedEntity_eq, found, if_neg fits, applied]; rfl, ?_, ?_⟩
    · simpa [applyEvent, found, applied] using inserted _ _ _
    · simp only [Staged.Counted, inserted, ExtTreeMap.size_insert, contained, found]
      simpa using counts
  | keyframe entity =>
    have fits : ¬(¬((staged.table entities)[entity]?).isSome ∧
        maxEntities ≤ staged.entityCount) := by
      rintro ⟨missing, full⟩
      rcases admissible with known | room
      · exact missing known
      · omega
    refine ⟨_, by simp only [stageEvent, stagedEntity_eq, if_neg fits]; rfl, inserted _ _ _, ?_⟩
    simp only [Staged.Counted, inserted, ExtTreeMap.size_insert, contained]
    split <;> omega

theorem stageEvents_spec (maxEntities : Nat)
    (applyDelta : I → S → D → Option S) (events : List (ReplicationEvent I S D))
    (affected : ExtTreeSet I) (staged : Staged I S) (counted : staged.Counted entities)
    (run : AdmissibleRun maxEntities applyDelta (staged.table entities) events)
    (distinct : (events.map ReplicationEvent.entity).Nodup)
    (fresh : ∀ event ∈ events, event.entity ∉ affected) :
    ∃ next, stageEvents entities maxEntities applyDelta events affected staged = .ok next ∧
      next.table entities = applyEvents applyDelta (staged.table entities) events ∧
      next.Counted entities := by
  induction events generalizing affected staged with
  | nil => exact ⟨staged, rfl, rfl, counted⟩
  | cons event _ ih =>
    obtain ⟨admissible, runRest⟩ := run
    obtain ⟨middle, stagedFirst, meaning, countedMiddle⟩ :=
      stageEvent_spec entities maxEntities applyDelta staged event counted admissible
    rw [List.map_cons, List.nodup_cons] at distinct
    rw [← meaning] at runRest
    obtain ⟨next, stagedRest, meaningRest, countedNext⟩ := ih (affected.insert event.entity)
      middle countedMiddle runRest distinct.2 (by
        intro later member touched
        rw [ExtTreeSet.mem_insert] at touched
        rcases touched with same | old
        · have equal : event.entity = later.entity := by simpa using same
          exact distinct.1 (List.mem_map.mpr ⟨later, member, equal.symm⟩)
        · exact fresh later (List.mem_cons_of_mem _ member) old)
    refine ⟨next, ?_, ?_, countedNext⟩
    · simp only [stageEvents, fresh event (by simp), if_false, stagedFirst, stagedRest]
    · rw [meaningRest, meaning, applyEvents_cons]

end Staging

end Elura.Replication
