import Elura.Runtime.DispatcherProgress

/-!
What becomes of a dispatcher whose delivery lost its lease: the store refuses the delivery's next
call, the others of the batch run to their end, and the refusal ends the dispatcher's loop.
-/

namespace Elura

variable {config : DispatcherConfig} {text : Error → String} {delivery : OutboxDelivery}
  {before after : DispatchShared} {stage next : DeliveryStage}

def StoreCall.Short (text : Error → String) : StoreCall → Prop
  | .settleFailure error _ _ => (text error).utf8ByteSize ≤ 4096
  | _ => True

theorem DispatchShared.perform_ok_iff (shared : DispatchShared) (positive : 0 < config.lease)
    (text : Error → String) (delivery : OutboxDelivery) (call : StoreCall) :
    (shared.perform config text delivery call).1 = .ok () ↔
      call.Short text ∧ shared.run.outbox.Holds delivery shared.run.clock := by
  cases call with
  | ack =>
    simp only [perform, StoreCall.Short, true_and]
    rw [(shared.ack_result delivery).1]
    exact shared.run.ack_ok_iff delivery
  | renew =>
    simp only [StoreCall.Short]
    refine (shared.run.settle_onLease_ok_iff _ delivery shared.run.clock _ _).trans ?_
    simp [Nat.ne_of_gt positive]
  | settleFailure error read later =>
    exact shared.settleFailure_ok_iff config text delivery error read later

theorem DeliveryStep.running {call : Option StoreCall}
    (step : DeliveryStep config text delivery before stage call after next)
    (result : Except Error Unit) : stage ≠ .finished result := by
  cases step with
  | renewed _ running | renewalFailed _ running => exact running result
  | _ => exact nofun

/-- What a call on the store answers decides how the delivery goes on. -/
theorem DeliveryStep.performed {call : StoreCall}
    (step : DeliveryStep config text delivery before stage (some call) after next) :
    after = (before.perform config text delivery call).2 ∧
      ∀ error, next = .finished (.error error) ↔
        (before.perform config text delivery call).1 = .error error := by
  cases step with
  | ackDuplicate | ack => exact ⟨rfl, fun error => by simp [DispatchShared.perform]⟩
  | settleFailure error =>
    exact ⟨rfl, fun error => by simp [DispatchShared.perform]⟩
  | renewed _ running _ _ success =>
    refine ⟨rfl, fun error => ⟨fun finished => absurd finished (running _), fun failed => ?_⟩⟩
    simp only [DispatchShared.perform] at failed
    rw [success] at failed
    cases failed
  | renewalFailed _ _ _ _ _ failed =>
    refine ⟨rfl, fun error => ?_⟩
    simp [DispatchShared.perform, failed]

theorem DeliveryStage.firstError_eq_none (stage : DeliveryStage) (earlier : Option Error) :
    stage.firstError earlier = none ↔
      earlier = none ∧ ∀ error, stage ≠ .finished (.error error) := by
  cases earlier with
  | some => simp [DeliveryStage.firstError]
  | none =>
    cases stage with
    | finished result => cases result <;> simp [DeliveryStage.firstError]
    | _ => simp [DeliveryStage.firstError]

theorem DispatcherConfig.validate_lease (valid : config.validate = .ok ()) :
    validateLease config.workerId config.batchSize config.lease = .ok () := by
  simp only [DispatcherConfig.validate] at valid
  rw [validateLease_ok_iff]
  split at valid
  · cases valid
  · rename_i sound
    simp only [not_or, Bool.not_eq_true, not_lt] at sound
    obtain ⟨named, short, some_, bounded, positive, _⟩ := sound
    exact ⟨named, short, Nat.pos_of_ne_zero some_, bounded, Nat.pos_of_ne_zero positive⟩

theorem DeliveryStep.faultless (positive : 0 < config.lease) {call : Option StoreCall}
    (step : DeliveryStep config text delivery before stage call after next)
    (held : ∀ made, call = some made →
      made.Short text ∧ before.run.outbox.Holds delivery before.run.clock) (error : Error) :
    next ≠ .finished (.error error) := by
  cases call with
  | none =>
    cases step with
    | seen => split <;> exact nofun
    | _ => exact nofun
  | some made =>
    intro failed
    have refused := (step.performed.2 error).mp failed
    rw [(before.perform_ok_iff positive text delivery made).mpr (held made rfl)] at refused
    cases refused

namespace DispatchWorld

variable {ι : Type} [DecidableEq ι] {source : Nat → Uuid} {config : ι → DispatcherConfig}
  {text : Error → String} {world : DispatchWorld ι}
variable {dispatcher : ι} {action : Action ι}

theorem forall_enter {property : DispatcherState → Prop} {dispatchers : ι → DispatcherState}
    (every : ∀ dispatcher, property (dispatchers dispatcher)) {state : DispatcherState}
    (entered : property state) (other : ι) :
    property (Function.update dispatchers dispatcher state other) := by
  by_cases same : other = dispatcher
  · rw [same, Function.update_self]
    exact entered
  · rw [Function.update_of_ne same]
    exact every other

def ErrorsKept : DispatcherState → Prop
  | .processing tasks firstError => firstError = none ↔
      ∀ task ∈ tasks, ∀ error, task.stage ≠ .finished (.error error)
  | _ => True

theorem ErrorsKept.deliver {before after : List DeliveryTask} {task : DeliveryTask}
    {firstError : Option Error} {stage : DeliveryStage}
    (kept : ErrorsKept (.processing (before ++ task :: after) firstError))
    (running : ∀ result, task.stage ≠ .finished result) :
    ErrorsKept (.processing (before ++ { task with stage } :: after)
      (stage.firstError firstError)) := by
  simp only [ErrorsKept, List.forall_mem_append, List.forall_mem_cons] at kept ⊢
  rw [DeliveryStage.firstError_eq_none, kept]
  constructor
  · rintro ⟨⟨earlier, _, later⟩, unfinished⟩
    exact ⟨earlier, unfinished, later⟩
  · rintro ⟨earlier, unfinished, later⟩
    exact ⟨⟨earlier, fun error => running _, later⟩, unfinished⟩

theorem Step.errorsKept {after : DispatchWorld ι}
    (step : Step source config text world action after)
    (kept : ∀ dispatcher, ErrorsKept (world.dispatchers dispatcher)) :
    ∀ dispatcher, ErrorsKept (after.dispatchers dispatcher) := by
  cases step with
  | tick | append | replayDeadLetter => exact kept
  | acquire =>
    refine forall_enter kept ?_
    split
    · simp [ErrorsKept]
    · trivial
  | deliver dispatcher _ _ _ _ _ _ _ batch progress =>
    have known := kept dispatcher
    rw [batch] at known
    exact forall_enter kept (known.deliver progress.running)
  | finishBatch _ _ firstError =>
    refine forall_enter kept ?_
    cases firstError <;> trivial
  | interrupt | shutdown => exact forall_enter kept trivial

theorem Reachable.errorsKept {clock : Nat}
    (run : Reachable source config text (start clock) world) :
    ∀ dispatcher, ErrorsKept (world.dispatchers dispatcher) :=
  ReachableWhen.preserves (fun _ _ _ _ step => step.errorsKept) run (fun _ => trivial)

theorem Step.stopped {after : DispatchWorld ι} (step : Step source config text world action after)
    {result : Except Error Unit} (ended : world.dispatchers dispatcher = .stopped result) :
    after.dispatchers dispatcher = .stopped result := by
  have other (mover : ι) (state : DispatcherState) (shared : DispatchShared)
      (active : world.dispatchers mover ≠ .stopped result) :
      ({ world with shared }.enter mover state).dispatchers dispatcher = .stopped result := by
    rw [enter_of_ne]
    · exact ended
    · rintro rfl
      exact active ended
  cases step with
  | tick | append | replayDeadLetter => exact ended
  | acquire mover _ _ here | deliver mover _ _ _ _ _ _ _ here | finishBatch mover _ _ here
  | interrupt mover _ _ here => exact other mover _ _ (by simp [here])
  | shutdown mover running => exact other mover _ _ (running result)

theorem ReachableWhen.stopped {allowed : DispatchWorld ι → Action ι → Prop}
    {later : DispatchWorld ι} (run : ReachableWhen allowed source config text world later)
    {result : Except Error Unit} (ended : world.dispatchers dispatcher = .stopped result) :
    later.dispatchers dispatcher = .stopped result :=
  run.preserves (fun _ _ _ _ step => step.stopped) ended

/-- A call on the store is made under a live lease, with a text that fits. -/
def Held (text : Error → String) (world : DispatchWorld ι) : Action ι → Prop
  | .deliver _ delivery (some call) =>
    call.Short text ∧ world.shared.run.outbox.Holds delivery world.shared.run.clock
  | _ => True

def Faultless : DispatcherState → Prop
  | .processing _ firstError => firstError = none
  | .stopped result => result = .ok ()
  | .polling => True

section

variable (valid : ∀ dispatcher, (config dispatcher).validate = .ok ())
include valid

theorem Step.faultless
    {after : DispatchWorld ι} (step : Step source config text world action after)
    (held : Held text world action)
    (clean : ∀ dispatcher, Faultless (world.dispatchers dispatcher)) :
    ∀ dispatcher, Faultless (after.dispatchers dispatcher) := by
  cases step with
  | tick | append | replayDeadLetter => exact clean
  | acquire dispatcher read past idle =>
    refine forall_enter clean ?_
    split
    · rfl
    · rename_i error failed
      unfold OutboxRun.acquire at failed
      rcases MemoryOutbox.acquire_cases _ source _ _ _ _ read with
        ⟨failure, invalid, _⟩ | ⟨_, acquired⟩
      · rw [DispatcherConfig.validate_lease (valid dispatcher)] at invalid
        cases invalid
      · rw [acquired] at failed
        cases failed
  | deliver dispatcher _ _ _ firstError _ _ stage batch progress =>
    have lease := (validateLease_ok_iff _ _ _).mp
      (DispatcherConfig.validate_lease (valid dispatcher))
    have known := clean dispatcher
    rw [batch] at known
    refine forall_enter clean ((stage.firstError_eq_none firstError).mpr ⟨known, ?_⟩)
    refine progress.faultless lease.2.2.2.2 ?_
    rintro made rfl
    exact held
  | finishBatch dispatcher _ firstError batch =>
    have known := clean dispatcher
    rw [batch] at known
    obtain rfl : firstError = none := known
    exact forall_enter clean trivial
  | interrupt => exact forall_enter clean trivial
  | shutdown => exact forall_enter clean rfl

theorem ReachableWhen.faultless
    {clock : Nat} (run : ReachableWhen (Held text) source config text (start clock) world) :
    ∀ dispatcher, Faultless (world.dispatchers dispatcher) :=
  run.preserves (fun _ _ _ held step => step.faultless valid held) (fun _ => trivial)

/-- The call of a delivery whose lease is lost changes nothing in the store and
nothing in the other deliveries; the delivery ends with an error. -/
theorem Step.leaseLost
    {delivery : OutboxDelivery} {call : StoreCall} {next : DispatchWorld ι}
    (step : Step source config text world (.deliver dispatcher delivery (some call)) next)
    (lost : ¬world.shared.run.outbox.Holds delivery world.shared.run.clock) :
    next.shared.run.outbox = world.shared.run.outbox ∧
      (∀ other, other ≠ dispatcher → next.dispatchers other = world.dispatchers other) ∧
      ∃ before stage after firstError error,
        world.dispatchers dispatcher =
          .processing (before ++ ⟨delivery, stage⟩ :: after) firstError ∧
        next.dispatchers dispatcher =
          .processing (before ++ ⟨delivery, .finished (.error error)⟩ :: after)
            (some (firstError.getD error)) := by
  cases step with
  | deliver _ before after task firstError _ shared stage batch progress =>
    have lease := (validateLease_ok_iff _ _ _).mp
      (DispatcherConfig.validate_lease (valid dispatcher))
    have refused := mt (world.shared.perform_ok_iff lease.2.2.2.2 text task.delivery call).mp
      (fun both => lost both.2)
    obtain ⟨⟨error, failed⟩, unchanged⟩ := world.shared.perform_refused _ _ _ _ refused
    obtain ⟨rfl, ends⟩ := progress.performed
    obtain rfl := (ends error).mpr failed
    refine ⟨unchanged, fun other different => enter_of_ne _ different _,
      before, task.stage, after, firstError, error, batch, ?_⟩
    rw [enter_self]
    cases firstError <;> rfl

end

theorem Step.finishBatch_iff {tasks : List DeliveryTask} {firstError : Option Error}
    {next : DispatchWorld ι} (step : Step source config text world (.finishBatch dispatcher) next)
    (batch : world.dispatchers dispatcher = .processing tasks firstError)
    (kept : ErrorsKept (.processing tasks firstError)) :
    (next.dispatchers dispatcher = .polling ↔ ∀ task ∈ tasks, task.stage = .finished (.ok ())) ∧
      (next.dispatchers dispatcher ≠ .polling →
        ∃ error, next.dispatchers dispatcher = .stopped (.error error)) := by
  cases step with
  | finishBatch _ _ _ finished complete =>
    rw [batch] at finished
    cases finished
    rw [enter_self]
    have failed : firstError = none ↔ ∀ task ∈ tasks, task.stage = .finished (.ok ()) := by
      refine kept.trans ⟨fun none_ task member => ?_, fun every task member error => ?_⟩
      · obtain ⟨result, finished⟩ := complete task member
        cases result with
        | error error => exact absurd finished (none_ task member error)
        | ok => exact finished
      · rw [every task member]
        exact nofun
    rw [← failed]
    cases firstError with
    | none | some => simp [afterBatch]

/-- A lost lease leaves the event and the rest of the batch alone, but the loop goes on exactly when
every delivery of the batch succeeded. In every run whose store calls are all made under a live
lease, no loop ends with an error. -/
theorem lost_lease_ends_dispatcher
    (valid : ∀ dispatcher, (config dispatcher).validate = .ok ()) (clock : Nat) :
    (∀ world, Reachable source config text (start clock) world → (∀ dispatcher delivery call next,
        Step source config text world (.deliver dispatcher delivery (some call)) next →
        ¬world.shared.run.outbox.Holds delivery world.shared.run.clock →
        next.shared.run.outbox = world.shared.run.outbox ∧
          (∀ other, other ≠ dispatcher → next.dispatchers other = world.dispatchers other) ∧
          ∃ before stage after firstError error,
            world.dispatchers dispatcher =
              .processing (before ++ ⟨delivery, stage⟩ :: after) firstError ∧
            next.dispatchers dispatcher =
              .processing (before ++ ⟨delivery, .finished (.error error)⟩ :: after)
                (some (firstError.getD error))) ∧
      (∀ dispatcher tasks firstError next,
        world.dispatchers dispatcher = .processing tasks firstError →
        Step source config text world (.finishBatch dispatcher) next →
        (next.dispatchers dispatcher = .polling ↔ ∀ task ∈ tasks, task.stage = .finished (.ok ())) ∧
        (next.dispatchers dispatcher ≠ .polling →
          ∃ error, next.dispatchers dispatcher = .stopped (.error error))) ∧
      ∀ dispatcher result later, world.dispatchers dispatcher = .stopped result →
        Reachable source config text world later →
        later.dispatchers dispatcher = .stopped result) ∧
      ∀ world, ReachableWhen (Held text) source config text (start clock) world →
        ∀ dispatcher error, world.dispatchers dispatcher ≠ .stopped (.error error) := by
  refine ⟨fun world reached => ⟨fun dispatcher delivery call next step lost =>
    step.leaseLost valid lost, ?_, fun dispatcher result later ended run => run.stopped ended⟩, ?_⟩
  · intro dispatcher tasks firstError next batch step
    have kept := Reachable.errorsKept reached dispatcher
    rw [batch] at kept
    exact step.finishBatch_iff batch kept
  · intro world run dispatcher error ended
    have clean := ReachableWhen.faultless valid run dispatcher
    rw [ended] at clean
    cases clean

section TakenOver

theorem mail_takenOver : ∃ world : DispatchWorld Bool,
    Reachable id (fun _ => .default) plainText (start 0) world ∧
      ¬world.shared.run.outbox.Holds (mailDelivery .default) world.shared.run.clock ∧
      world.dispatchers false =
        .processing [⟨mailDelivery .default, .acknowledging⟩] none ∧
      ∃ taken, world.dispatchers true = .processing [⟨taken, .begun⟩] none ∧
        taken.event = (mailDelivery .default).event := by
  obtain ⟨begun, reached, _, _, clock, drawn, only, batch, others⟩ :=
    @mail_delivered Bool _ (fun _ => .default) plainText false default_clean
  obtain ⟨handling, reached, shared, batch, same⟩ := advance reached batch (.unchecked rfl)
  have idle : handling.dispatchers true = .polling :=
    (same true (by decide)).trans (others true (by decide))
  let expired : DispatchWorld Bool := { handling with shared := { handling.shared with
    run := { handling.shared.run with clock := 30000 } } }
  have waited : Reachable id (fun _ => .default) plainText (start 0) expired :=
    reached.tail ⟨_, trivial, Step.tick 30000 (by rw [shared, clock]; exact Nat.zero_le _)⟩
  have expiredOnly : OutboxRun.Only expired.shared.run.outbox (mailEntry .default) := by
    simp only [expired, shared]
    exact only
  have acquired := @OutboxRun.acquire_only _ expired.shared.run id expiredOnly 30000 (by decide)
    _ _ _ default_clean
  have second : expired.shared.run.drawn = 1 := by simp only [expired, shared, drawn]
  rw [second] at acquired
  let taken := expired.acquire id .default true 30000
  have owned : Reachable id (fun _ => .default) plainText (start 0) taken :=
    waited.tail ⟨_, trivial, Step.acquire true 30000 le_rfl idle⟩
  have takenBatch : taken.dispatchers false =
      .processing [⟨mailDelivery .default, .handling⟩] none :=
    (enter_of_ne _ (by decide) _).trans batch
  have takenOnly : OutboxRun.Only taken.shared.run.outbox
      ((mailEntry .default).leaseTo DispatcherConfig.default.workerId 1 60000) := by
    simp only [taken, acquire, acquired]
    exact expiredOnly.insert rfl
  have other : taken.dispatchers true = .processing [⟨(mailEntry .default).delivery
      DispatcherConfig.default.workerId 1 60000, .begun⟩] none := by
    simp only [taken, acquire, acquired]
    exact enter_self _ _ _
  obtain ⟨handled, reached, sharedHandled, batch, sameHandled⟩ :=
    advance owned takenBatch (.handled (.ok ()) (.inl rfl))
  obtain ⟨ready, reached, sharedReady, batch, sameReady⟩ := advance reached batch (.unmarked rfl)
  refine ⟨ready, reached, ?_, batch, _, (sameReady true (by decide)).trans
    ((sameHandled true (by decide)).trans other), rfl⟩
  rintro ⟨entry, found, _, token, _⟩
  rw [sharedReady, sharedHandled] at found
  obtain rfl := Option.some.inj (((takenOnly _).trans (if_pos rfl)).symm.trans found)
  cases token

theorem takenOver_unchanged : ∃ world next : DispatchWorld Bool,
    Reachable id (fun _ => .default) plainText (start 0) world ∧
      Step id (fun _ => .default) plainText world
        (.deliver false (mailDelivery .default) (some .ack)) next ∧
      next.shared.run.outbox = world.shared.run.outbox ∧
      next.dispatchers true = world.dispatchers true := by
  obtain ⟨world, reached, lost, batch, _⟩ := mail_takenOver
  have step : Step id (fun _ => .default) plainText world
      (.deliver false (mailDelivery .default) (some .ack)) _ :=
    .deliver false [] [] ⟨mailDelivery .default, .acknowledging⟩ none _ _ _ batch .ack
  obtain ⟨outbox, others, _⟩ := ((lost_lease_ends_dispatcher
    (fun _ => (by decide : DispatcherConfig.default.validate = .ok ())) 0).1 world reached).1
    _ _ _ _ step lost
  exact ⟨world, _, reached, step, outbox, others true (by decide)⟩

/-- The dispatcher that lost its lease stops, although no shutdown was asked for. -/
theorem takenOver_stops : ∃ world next stopped : DispatchWorld Bool,
    Reachable id (fun _ => .default) plainText (start 0) world ∧
      (∃ taken, world.dispatchers true = .processing [⟨taken, .begun⟩] none ∧
        taken.event = (mailDelivery .default).event) ∧
      Step id (fun _ => .default) plainText world
        (.deliver false (mailDelivery .default) (some .ack)) next ∧
      Step id (fun _ => .default) plainText next (.finishBatch false) stopped ∧
      ∃ error, stopped.dispatchers false = .stopped (.error error) := by
  obtain ⟨world, reached, lost, batch, other⟩ := mail_takenOver
  have step : Step id (fun _ => .default) plainText world
      (.deliver false (mailDelivery .default) (some .ack)) _ :=
    .deliver false [] [] ⟨mailDelivery .default, .acknowledging⟩ none _ _ _ batch .ack
  have refused := mt (world.shared.perform_ok_iff
    (by decide : 0 < DispatcherConfig.default.lease) plainText (mailDelivery .default) .ack).mp
    (fun both => lost both.2)
  obtain ⟨⟨error, failed⟩, _⟩ := world.shared.perform_refused .default _ _ _ refused
  refine ⟨world, _, _, reached, other, step, .finishBatch false _ _ (enter_self _ _ _) ?_,
    error, ?_⟩
  · intro task member
    rw [List.nil_append, List.mem_singleton] at member
    exact ⟨_, by rw [member]⟩
  · refine (enter_self _ _ _).trans ?_
    rw [show (world.shared.ack (mailDelivery .default)).1 = .error error from failed]
    rfl

end TakenOver

end DispatchWorld

end Elura
