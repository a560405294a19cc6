import Elura.Basis.Runs
import Elura.Core.OutboxRun

/-!
The outbox dispatchers of `elura-runtime`. Every dispatcher polls one shared store for a batch and
processes its deliveries concurrently, while their leases are renewed; the first error of a batch
ends the loop.
-/

namespace Elura

open Std (ExtTreeMap)

structure DispatcherConfig where
  workerId : String
  batchSize : Nat
  lease : Nat
  pollInterval : Nat
  processingTimeout : Nat
  maxAttempts : Nat
  initialBackoff : Nat
  maxBackoff : Nat
  idempotencyTtl : Nat
  /-- Whether the shared idempotency store is configured. -/
  idempotency : Bool
  deriving DecidableEq, Repr

namespace DispatcherConfig

/-- Durations in milliseconds. -/
def default : DispatcherConfig where
  workerId := "outbox-worker"
  batchSize := 32
  lease := 30000
  pollInterval := 500
  processingTimeout := 30000
  maxAttempts := 10
  initialBackoff := 1000
  maxBackoff := 60000
  idempotencyTtl := 3600000
  idempotency := false

def validate (config : DispatcherConfig) : Except Error Unit :=
  if isBlank config.workerId ∨ 128 < config.workerId.utf8ByteSize ∨ config.batchSize = 0 ∨
      4096 < config.batchSize ∨ config.lease = 0 ∨ config.pollInterval = 0 ∨
      config.processingTimeout = 0 ∨ config.maxAttempts = 0 ∨ config.initialBackoff = 0 ∨
      config.maxBackoff < config.initialBackoff ∨ config.idempotencyTtl = 0 then
    .error (.invalidConfig "invalid outbox dispatcher")
  else .ok ()

def backoff (config : DispatcherConfig) (attempt : Nat) : Nat :=
  let multiplier := if attempt - 1 < 32 then 2 ^ (attempt - 1) else u32Max
  min (config.initialBackoff * multiplier) config.maxBackoff

end DispatcherConfig

inductive DeliveryStage
  | begun
  | duplicate
  | handling
  | handled
  | acknowledging
  | failing (error : Error)
  | finished (result : Except Error Unit)

structure DeliveryTask where
  delivery : OutboxDelivery
  stage : DeliveryStage

inductive DispatcherState
  | polling
  | processing (tasks : List DeliveryTask) (firstError : Option Error)
  | stopped (result : Except Error Unit)

inductive DispatchRecord
  | handled (id : Uuid)
  | acknowledged (id : Uuid)
  deriving DecidableEq, Repr

/-- What the dispatchers share: the store, the idempotency marks, and the trace
of successful handler calls and acknowledgements, newest first. -/
structure DispatchShared where
  run : OutboxRun
  marks : ExtTreeMap Uuid Nat
  trace : List DispatchRecord

namespace DispatchShared

def seen (shared : DispatchShared) (id : Uuid) : Bool × DispatchShared :=
  let marks := shared.marks.filter (fun _ expires => shared.run.clock < expires)
  (marks.contains id, { shared with marks })

def mark (shared : DispatchShared) (id : Uuid) (expiresAt : Nat) : DispatchShared :=
  { shared with marks := shared.marks.insert id expiresAt }

def ack (shared : DispatchShared) (delivery : OutboxDelivery) :
    Except Error Unit × DispatchShared :=
  match shared.run.ack delivery with
  | (.ok (), run) =>
    (.ok (), { shared with run, trace := .acknowledged delivery.event.id :: shared.trace })
  | (.error error, run) => (.error error, { shared with run })

def renew (shared : DispatchShared) (config : DispatcherConfig) (delivery : OutboxDelivery)
    (later : Nat) : Except Error Unit × DispatchShared :=
  let outcome := shared.run.renew delivery config.lease later
  (outcome.1, { shared with run := outcome.2 })

/-- The end of `finish_delivery` for a failed handler call: the event goes to the
dead letters or is scheduled again, both with the text of the error. -/
def settleFailure (shared : DispatchShared) (config : DispatcherConfig) (text : Error → String)
    (delivery : OutboxDelivery) (error : Error) (read later : Nat) :
    Except Error Unit × DispatchShared :=
  let outcome :=
    if config.maxAttempts ≤ delivery.attempt then
      shared.run.deadLetter delivery (text error) later
    else
      shared.run.retry delivery (read + config.backoff delivery.attempt) (text error) later
  (outcome.1, { shared with run := outcome.2 })

end DispatchShared

theorem DispatchShared.ack_result (shared : DispatchShared) (delivery : OutboxDelivery) :
    (shared.ack delivery).1 = (shared.run.ack delivery).1 ∧
      (shared.ack delivery).2.run = (shared.run.ack delivery).2 := by
  unfold DispatchShared.ack
  rcases shared.run.ack delivery with ⟨result, run⟩
  cases result <;> exact ⟨rfl, rfl⟩

inductive StoreCall
  | ack
  | renew (later : Nat)
  | settleFailure (error : Error) (read later : Nat)

def DispatchShared.perform (shared : DispatchShared) (config : DispatcherConfig)
    (text : Error → String) (delivery : OutboxDelivery) :
    StoreCall → Except Error Unit × DispatchShared
  | .ack => shared.ack delivery
  | .renew later => shared.renew config delivery later
  | .settleFailure error read later =>
    shared.settleFailure config text delivery error read later

/-- One step of one delivery, labelled with the call it makes on the store. A
handler call may end at any moment with any result, a timeout included, and the
lease may be renewed at any moment. -/
inductive DeliveryStep (config : DispatcherConfig) (text : Error → String)
    (delivery : OutboxDelivery) (shared : DispatchShared) :
    DeliveryStage → Option StoreCall → DispatchShared → DeliveryStage → Prop
  | unchecked (without : config.idempotency = false) :
      DeliveryStep config text delivery shared .begun none shared .handling
  | seen (configured : config.idempotency = true) :
      DeliveryStep config text delivery shared .begun none (shared.seen delivery.event.id).2
        (if (shared.seen delivery.event.id).1 then .duplicate else .handling)
  | ackDuplicate :
      DeliveryStep config text delivery shared .duplicate (some .ack) (shared.ack delivery).2
        (.finished (shared.ack delivery).1)
  | handled (result : Except Error Unit)
      (success : result = .ok () ∨ result = .error .alreadyProcessed) :
      DeliveryStep config text delivery shared .handling none
        { shared with trace := .handled delivery.event.id :: shared.trace } .handled
  | failed (error : Error) (failure : error ≠ .alreadyProcessed) :
      DeliveryStep config text delivery shared .handling none shared (.failing error)
  | unmarked (without : config.idempotency = false) :
      DeliveryStep config text delivery shared .handled none shared .acknowledging
  | mark (configured : config.idempotency = true) :
      DeliveryStep config text delivery shared .handled none
        (shared.mark delivery.event.id (shared.run.clock + config.idempotencyTtl)) .acknowledging
  | ack :
      DeliveryStep config text delivery shared .acknowledging (some .ack) (shared.ack delivery).2
        (.finished (shared.ack delivery).1)
  | settleFailure (error : Error) (read later : Nat) (past : read ≤ shared.run.clock)
      (forward : shared.run.clock ≤ later) :
      DeliveryStep config text delivery shared (.failing error)
        (some (.settleFailure error read later))
        (shared.settleFailure config text delivery error read later).2
        (.finished (shared.settleFailure config text delivery error read later).1)
  | renewed (stage : DeliveryStage) (running : ∀ result, stage ≠ .finished result) (later : Nat)
      (forward : shared.run.clock ≤ later)
      (success : (shared.renew config delivery later).1 = .ok ()) :
      DeliveryStep config text delivery shared stage (some (.renew later))
        (shared.renew config delivery later).2 stage
  | renewalFailed (stage : DeliveryStage) (running : ∀ result, stage ≠ .finished result)
      (later : Nat) (forward : shared.run.clock ≤ later) (error : Error)
      (failure : (shared.renew config delivery later).1 = .error error) :
      DeliveryStep config text delivery shared stage (some (.renew later))
        (shared.renew config delivery later).2 (.finished (.error error))

def DeliveryStage.firstError (stage : DeliveryStage) (earlier : Option Error) : Option Error :=
  match earlier, stage with
  | none, .finished (.error error) => some error
  | earlier, _ => earlier

structure DispatchWorld (ι : Type) where
  shared : DispatchShared
  dispatchers : ι → DispatcherState

namespace DispatchWorld

variable {ι : Type} [DecidableEq ι]

def start (clock : Nat) : DispatchWorld ι where
  shared := { run := .start clock, marks := ∅, trace := [] }
  dispatchers := fun _ => .polling

def enter (world : DispatchWorld ι) (dispatcher : ι) (state : DispatcherState) :
    DispatchWorld ι :=
  { world with dispatchers := Function.update world.dispatchers dispatcher state }

theorem enter_self (world : DispatchWorld ι) (dispatcher : ι) (state : DispatcherState) :
    (world.enter dispatcher state).dispatchers dispatcher = state :=
  Function.update_self _ _ _

theorem enter_of_ne (world : DispatchWorld ι) {dispatcher other : ι} (different : other ≠ dispatcher)
    (state : DispatcherState) :
    (world.enter dispatcher state).dispatchers other = world.dispatchers other :=
  Function.update_of_ne different _ _

def acquire (world : DispatchWorld ι) (source : Nat → Uuid) (config : DispatcherConfig)
    (dispatcher : ι) (read : Nat) : DispatchWorld ι :=
  let outcome :=
    world.shared.run.acquire source config.workerId config.batchSize config.lease read
  let state : DispatcherState :=
    match outcome.1 with
    | .ok deliveries => .processing (deliveries.map (fun delivery => ⟨delivery, .begun⟩)) none
    | .error error => .stopped (.error error)
  { world with shared := { world.shared with run := outcome.2 } }.enter dispatcher state

def afterBatch (firstError : Option Error) : DispatcherState :=
  match firstError with
  | none => .polling
  | some error => .stopped (.error error)

inductive Action (ι : Type)
  | tick (later : Nat)
  | append (event : OutboxEvent)
  | replayDeadLetter (id : Uuid) (availableAt : Nat)
  | acquire (dispatcher : ι) (read : Nat)
  | deliver (dispatcher : ι) (delivery : OutboxDelivery) (call : Option StoreCall)
  | finishBatch (dispatcher : ι)
  | interrupt (dispatcher : ι)
  | shutdown (dispatcher : ι)

inductive Step (source : Nat → Uuid) (config : ι → DispatcherConfig) (text : Error → String)
    (world : DispatchWorld ι) : Action ι → DispatchWorld ι → Prop
  | tick (later : Nat) (forward : world.shared.run.clock ≤ later) :
      Step source config text world (.tick later)
        { world with shared := { world.shared with
          run := { world.shared.run with clock := later } } }
  | append (event : OutboxEvent) :
      Step source config text world (.append event)
        { world with shared := { world.shared with run := (world.shared.run.append event).2 } }
  | replayDeadLetter (id : Uuid) (availableAt : Nat) :
      Step source config text world (.replayDeadLetter id availableAt)
        { world with shared := { world.shared with
          run := (world.shared.run.replayDeadLetter id availableAt).2 } }
  | acquire (dispatcher : ι) (read : Nat) (past : read ≤ world.shared.run.clock)
      (idle : world.dispatchers dispatcher = .polling) :
      Step source config text world (.acquire dispatcher read)
        (world.acquire source (config dispatcher) dispatcher read)
  | deliver (dispatcher : ι) (before after : List DeliveryTask) (task : DeliveryTask)
      (firstError : Option Error) (call : Option StoreCall) (shared : DispatchShared)
      (stage : DeliveryStage)
      (batch : world.dispatchers dispatcher = .processing (before ++ task :: after) firstError)
      (step : DeliveryStep (config dispatcher) text task.delivery world.shared task.stage call
        shared stage) :
      Step source config text world (.deliver dispatcher task.delivery call)
        ({ world with shared }.enter dispatcher
          (.processing (before ++ { task with stage } :: after) (stage.firstError firstError)))
  | finishBatch (dispatcher : ι) (tasks : List DeliveryTask) (firstError : Option Error)
      (batch : world.dispatchers dispatcher = .processing tasks firstError)
      (complete : ∀ task ∈ tasks, ∃ result, task.stage = .finished result) :
      Step source config text world (.finishBatch dispatcher)
        (world.enter dispatcher (afterBatch firstError))
  | interrupt (dispatcher : ι) (tasks : List DeliveryTask) (firstError : Option Error)
      (batch : world.dispatchers dispatcher = .processing tasks firstError) :
      Step source config text world (.interrupt dispatcher) (world.enter dispatcher .polling)
  | shutdown (dispatcher : ι) (running : ∀ result, world.dispatchers dispatcher ≠ .stopped result) :
      Step source config text world (.shutdown dispatcher)
        (world.enter dispatcher (.stopped (.ok ())))

def ReachableWhen (allowed : DispatchWorld ι → Action ι → Prop) (source : Nat → Uuid)
    (config : ι → DispatcherConfig) (text : Error → String) :
    DispatchWorld ι → DispatchWorld ι → Prop :=
  Relation.ReflTransGen (fun world after =>
    ∃ action, allowed world action ∧ Step source config text world action after)

theorem ReachableWhen.preserves {allowed : DispatchWorld ι → Action ι → Prop}
    {source : Nat → Uuid} {config : ι → DispatcherConfig} {text : Error → String}
    {property : DispatchWorld ι → Prop}
    (preserved : ∀ before action after, allowed before action →
      Step source config text before action after → property before → property after)
    {first last : DispatchWorld ι} (run : ReachableWhen allowed source config text first last)
    (initial : property first) : property last :=
  RunWhen.invariant preserved (show RunWhen allowed (Step source config text) first last from run)
    initial

abbrev Reachable (source : Nat → Uuid) (config : ι → DispatcherConfig) (text : Error → String) :
    DispatchWorld ι → DispatchWorld ι → Prop :=
  ReachableWhen (fun _ _ => True) source config text

end DispatchWorld

end Elura
