import Elura.Runtime.Dispatcher

/-!
What dispatchers never do: acknowledge an event that no handler call completed, or bury an event
before its last attempt.
-/

namespace Elura

open List Function

def DeliveryStage.Succeeded : DeliveryStage → Prop
  | .duplicate => True
  | .handled => True
  | .acknowledging => True
  | _ => False

namespace DispatchShared

variable {delivery : OutboxDelivery}

structure Invariant (source : Nat → Uuid) (buried : DeadLetter → Prop) (shared : DispatchShared) :
    Prop where
  run : shared.run.Invariant source
  marked : ∀ id ∈ shared.marks, .handled id ∈ shared.trace
  completed : ∀ id ∈ shared.run.outbox.completed, ∃ later earlier,
    shared.trace = later ++ .acknowledged id :: earlier ∧ .handled id ∈ earlier
  dead : ∀ (id : Uuid) letter, shared.run.outbox.dead[id]? = some letter → buried letter

structure Supports (shared : DispatchShared) (delivery : OutboxDelivery)
    (stage : DeliveryStage) : Prop where
  delivered : .delivered delivery ∈ shared.run.log
  handled : stage.Succeeded → .handled delivery.event.id ∈ shared.trace

structure Extends (before after : DispatchShared) : Prop where
  log : before.run.log ⊆ after.run.log
  trace : before.trace ⊆ after.trace

theorem Supports.mono {before after : DispatchShared} (extends_ : Extends before after)
    {stage : DeliveryStage} (supports : Supports before delivery stage) :
    Supports after delivery stage :=
  ⟨extends_.log supports.delivered, fun succeeded => extends_.trace (supports.handled succeeded)⟩

variable {source : Nat → Uuid} {buried : DeadLetter → Prop} {shared : DispatchShared}

section

variable (invariant : Invariant source buried shared)
include invariant

theorem Invariant.withRun {run : OutboxRun}
    (valid : run.Invariant source) (completed : run.outbox.completed = shared.run.outbox.completed)
    (dead : ∀ (id : Uuid) letter, run.outbox.dead[id]? = some letter →
      shared.run.outbox.dead[id]? = some letter) :
    Invariant source buried { shared with run } := by
  refine ⟨valid, invariant.marked, ?_, ?_⟩
  · intro id known
    exact invariant.completed id (completed ▸ known)
  · intro id letter found
    exact invariant.dead id letter (dead id letter found)

theorem Invariant.seen (id : Uuid) :
    Invariant source buried (shared.seen id).2 ∧ Extends shared (shared.seen id).2 ∧
      ((shared.seen id).1 → .handled id ∈ shared.trace) := by
  have subset : ∀ other ∈ (shared.seen id).2.marks, other ∈ shared.marks := by
    intro other member
    exact Std.ExtTreeMap.mem_of_mem_filter member
  refine ⟨⟨invariant.run, ?_, invariant.completed, invariant.dead⟩,
    ⟨fun _ member => member, fun _ member => member⟩, ?_⟩
  · exact fun other member => invariant.marked other (subset other member)
  · intro found
    exact invariant.marked id (subset id (Std.ExtTreeMap.contains_iff_mem.mp found))

theorem Invariant.mark {id : Uuid}
    (handled : .handled id ∈ shared.trace) (expiresAt : Nat) :
    Invariant source buried (shared.mark id expiresAt) := by
  refine ⟨invariant.run, ?_, invariant.completed, invariant.dead⟩
  intro other member
  rcases Std.ExtTreeMap.mem_insert.mp member with same | old
  · rw [Std.compare_eq_iff_eq] at same
    exact same ▸ handled
  · exact invariant.marked other old

theorem Invariant.ack
    (handled : .handled delivery.event.id ∈ shared.trace) :
    Invariant source buried (shared.ack delivery).2 ∧ Extends shared (shared.ack delivery).2 := by
  have valid := invariant.run.ack delivery
  unfold DispatchShared.ack
  rcases shared.run.ack_cases delivery with ⟨error, failed⟩ | ⟨entry, found, _, acked⟩
  · rw [failed]
    exact ⟨invariant, ⟨fun _ => id, fun _ => id⟩⟩
  · obtain ⟨tracks, _⟩ := (invariant.run.consistent _).active entry found
    rw [acked] at valid ⊢
    refine ⟨⟨valid, ?_, ?_, invariant.dead⟩, ⟨fun _ member => mem_cons_of_mem _ member,
        fun _ member => mem_cons_of_mem _ member⟩⟩
    · exact fun id member => mem_cons_of_mem _ (invariant.marked id member)
    · intro id known
      rcases Std.ExtTreeMap.mem_insert.mp known with same | old
      · rw [Std.compare_eq_iff_eq, tracks.named] at same
        subst id
        exact ⟨[], shared.trace, rfl, handled⟩
      · obtain ⟨later, earlier, split, before⟩ := invariant.completed id old
        exact ⟨.acknowledged delivery.event.id :: later, earlier, by rw [split]; rfl, before⟩

theorem Invariant.renew (config : DispatcherConfig)
    (delivery : OutboxDelivery) (later : Nat) :
    Invariant source buried (shared.renew config delivery later).2 ∧
      Extends shared (shared.renew config delivery later).2 := by
  obtain ⟨completed, dead⟩ := shared.run.renew_frame delivery config.lease later
  refine ⟨invariant.withRun (invariant.run.renew delivery config.lease later) completed ?_,
    ⟨shared.run.settle_log_subset _ _, fun _ => id⟩⟩
  intro id letter found
  exact dead ▸ found

theorem Invariant.attempt_eq
    (delivered : .delivered delivery ∈ shared.run.log) {entry : OutboxEntry}
    (found : shared.run.outbox.active[delivery.event.id]? = some entry) {now : Nat}
    (held : entry.HeldBy delivery now) : entry.attempt = delivery.attempt := by
  obtain ⟨tracks, _⟩ := (invariant.run.consistent _).active entry found
  obtain ⟨_, token, leaseUntil, leased, _⟩ := held
  obtain ⟨last, recorded, _, sameToken, _, attempt⟩ := tracks.holder (by simp [leased])
  have same : last = delivery := OutboxRun.delivered_unique invariant.run.distinct
    (OutboxRecord.lastDelivery_mem recorded).1 delivered
    (Option.some.inj (sameToken.symm.trans token))
  rw [attempt, same]

theorem Invariant.settleFailure
    {config : DispatcherConfig} (text : Error → String)
    (delivered : .delivered delivery ∈ shared.run.log)
    (last : ∀ letter : DeadLetter, config.maxAttempts ≤ letter.attempt → buried letter)
    (error : Error) (read later : Nat) :
    Invariant source buried (shared.settleFailure config text delivery error read later).2 ∧
      Extends shared (shared.settleFailure config text delivery error read later).2 := by
  unfold DispatchShared.settleFailure
  split
  · rename_i exhausted
    have valid := invariant.run.deadLetter delivery (text error) later
    refine ⟨?_, ⟨shared.run.settle_log_subset _ _, fun _ => id⟩⟩
    rcases shared.run.deadLetter_cases delivery (text error) later with
      ⟨_, failed⟩ | ⟨entry, found, held, buriedNow⟩
    · rw [failed] at valid ⊢
      exact invariant.withRun valid rfl (fun _ _ old => old)
    · have attempt := invariant.attempt_eq delivered found held
      rw [buriedNow] at valid ⊢
      refine ⟨valid, invariant.marked, invariant.completed, ?_⟩
      intro id letter present
      rw [OrderedMap.getElem?_insert_ite] at present
      split at present
      · obtain rfl := Option.some.inj present
        exact last _ (attempt ▸ exhausted)
      · exact invariant.dead id letter present
  · obtain ⟨completed, dead⟩ := shared.run.retry_frame delivery
      (read + config.backoff delivery.attempt) (text error) later
    refine ⟨invariant.withRun (invariant.run.retry delivery _ (text error) later) completed ?_,
      ⟨shared.run.settle_log_subset _ _, fun _ => id⟩⟩
    intro id letter found
    exact dead ▸ found

end

end DispatchShared

/-- A step of one delivery keeps what all deliveries rest on. -/
theorem DeliveryStep.invariant {source : Nat → Uuid} {buried : DeadLetter → Prop}
    {config : DispatcherConfig} {text : Error → String} {delivery : OutboxDelivery}
    {before after : DispatchShared} {stage next : DeliveryStage} {call : Option StoreCall}
    (step : DeliveryStep config text delivery before stage call after next)
    (last : ∀ letter : DeadLetter, config.maxAttempts ≤ letter.attempt → buried letter)
    (invariant : before.Invariant source buried) (supports : before.Supports delivery stage) :
    after.Invariant source buried ∧ before.Extends after ∧ after.Supports delivery next := by
  have same : before.Extends before := ⟨fun _ => id, fun _ => id⟩
  cases step with
  | unchecked | failed =>
    exact ⟨invariant, same, supports.delivered, nofun⟩
  | seen configured =>
    obtain ⟨kept, extends_, known⟩ := invariant.seen delivery.event.id
    refine ⟨kept, extends_, supports.delivered, fun succeeded => ?_⟩
    split at succeeded
    · rename_i found
      exact known found
    · cases succeeded
  | ackDuplicate | ack =>
    obtain ⟨kept, extends_⟩ := invariant.ack (supports.handled trivial)
    exact ⟨kept, extends_, extends_.log supports.delivered, nofun⟩
  | handled =>
    refine ⟨⟨invariant.run, ?_, ?_, invariant.dead⟩,
      ⟨fun _ => id, fun _ member => mem_cons_of_mem _ member⟩,
      supports.delivered, fun _ => mem_cons_self⟩
    · exact fun id member => mem_cons_of_mem _ (invariant.marked id member)
    · intro id known
      obtain ⟨later, earlier, split, handled⟩ := invariant.completed id known
      exact ⟨.handled delivery.event.id :: later, earlier, by rw [split]; rfl, handled⟩
  | unmarked =>
    exact ⟨invariant, same, supports.delivered, fun _ => supports.handled trivial⟩
  | mark =>
    have handled := supports.handled trivial
    exact ⟨invariant.mark handled _, ⟨fun _ => id, fun _ => id⟩,
      supports.delivered, fun _ => handled⟩
  | settleFailure error read later =>
    obtain ⟨kept, extends_⟩ :=
      invariant.settleFailure text supports.delivered last error read later
    exact ⟨kept, extends_, extends_.log supports.delivered, nofun⟩
  | renewed _ _ later =>
    obtain ⟨kept, extends_⟩ := invariant.renew config delivery later
    exact ⟨kept, extends_, supports.mono extends_⟩
  | renewalFailed _ _ later =>
    obtain ⟨kept, extends_⟩ := invariant.renew config delivery later
    exact ⟨kept, extends_, extends_.log supports.delivered, nofun⟩

namespace DispatchWorld

variable {ι : Type} [DecidableEq ι] {source : Nat → Uuid} {config : ι → DispatcherConfig}
  {text : Error → String} {world : DispatchWorld ι}

def LastAttempt (config : ι → DispatcherConfig) (letter : DeadLetter) : Prop :=
  ∃ dispatcher, (config dispatcher).maxAttempts ≤ letter.attempt

structure Invariant (source : Nat → Uuid) (config : ι → DispatcherConfig)
    (world : DispatchWorld ι) : Prop where
  shared : world.shared.Invariant source (LastAttempt config)
  tasks : ∀ dispatcher tasks firstError,
    world.dispatchers dispatcher = .processing tasks firstError →
    ∀ task ∈ tasks, world.shared.Supports task.delivery task.stage

omit [DecidableEq ι] in
theorem invariant_start (source : Nat → Uuid) (config : ι → DispatcherConfig) (clock : Nat) :
    Invariant source config (start clock) := by
  refine ⟨⟨OutboxRun.invariant_start source clock, ?_, ?_, ?_⟩, ?_⟩
  · intro id known
    simp [start] at known
  · intro id known
    simp [start, OutboxRun.start, MemoryOutbox.new] at known
  · intro id letter found
    simp [start, OutboxRun.start, MemoryOutbox.new] at found
  · intro dispatcher tasks firstError processing
    cases processing

theorem Invariant.enter (invariant : Invariant source config world) {shared : DispatchShared}
    (kept : shared.Invariant source (LastAttempt config)) (extends_ : world.shared.Extends shared)
    {dispatcher : ι} {state : DispatcherState}
    (own : ∀ tasks firstError, state = .processing tasks firstError →
      ∀ task ∈ tasks, shared.Supports task.delivery task.stage) :
    Invariant source config ({ world with shared }.enter dispatcher state) := by
  refine ⟨kept, ?_⟩
  intro other tasks firstError processing task member
  by_cases same : other = dispatcher
  · subst other
    simp only [DispatchWorld.enter, update_self] at processing
    exact own tasks firstError processing task member
  · simp only [DispatchWorld.enter, update_of_ne same] at processing
    exact (invariant.tasks other tasks firstError processing task member).mono extends_

omit [DecidableEq ι] in
theorem Invariant.withRun (invariant : Invariant source config world) {run : OutboxRun}
    (valid : run.Invariant source)
    (completed : run.outbox.completed = world.shared.run.outbox.completed)
    (dead : ∀ (id : Uuid) letter, run.outbox.dead[id]? = some letter →
      world.shared.run.outbox.dead[id]? = some letter)
    (log : world.shared.run.log ⊆ run.log) :
    Invariant source config { world with shared := { world.shared with run } } := by
  refine ⟨invariant.shared.withRun valid completed dead, ?_⟩
  intro dispatcher tasks firstError processing task member
  have extends_ : world.shared.Extends { world.shared with run } := ⟨log, fun _ known => known⟩
  exact (invariant.tasks dispatcher tasks firstError processing task member).mono extends_

theorem Step.invariant (injective : Function.Injective source) {action : Action ι}
    {after : DispatchWorld ι} (step : Step source config text world action after) (initial : Invariant source config world) :
    Invariant source config after := by
  have same : world.shared.Extends world.shared := ⟨fun _ => id, fun _ => id⟩
  have run := initial.shared.run
  cases step with
  | tick later =>
    exact initial.withRun (run.atClock later) rfl (fun _ _ found => found)
      (fun _ => id)
  | append event =>
    obtain ⟨completed, dead⟩ := world.shared.run.append_frame event
    exact initial.withRun (run.append event) completed (fun id letter found => dead ▸ found)
      (world.shared.run.settle_log_subset _ _)
  | replayDeadLetter id availableAt =>
    obtain ⟨completed, dead⟩ := world.shared.run.replayDeadLetter_frame id availableAt
    exact initial.withRun (run.replayDeadLetter id availableAt) completed dead
      (world.shared.run.settle_log_subset _ _)
  | acquire dispatcher read past idle =>
    obtain ⟨completed, dead⟩ := world.shared.run.acquire_frame source
      (config dispatcher).workerId (config dispatcher).batchSize (config dispatcher).lease read
    obtain ⟨log, logged⟩ := world.shared.run.acquire_log source
      (config dispatcher).workerId (config dispatcher).batchSize (config dispatcher).lease read
    refine initial.enter (initial.shared.withRun
      (run.acquire injective _ _ _ read) completed (fun id letter found => dead ▸ found))
      ⟨log, fun _ => id⟩ ?_
    intro tasks firstError processing task member
    split at processing
    · rename_i deliveries acquired
      simp only [DispatcherState.processing.injEq] at processing
      rw [← processing.1] at member
      obtain ⟨delivery, belongs, rfl⟩ := mem_map.mp member
      exact ⟨logged deliveries acquired delivery belongs, nofun⟩
    · cases processing
  | deliver dispatcher _ _ task _ _ shared _ batch progress =>
    have supports := initial.tasks dispatcher _ _ batch
    obtain ⟨kept, extends_, next⟩ := progress.invariant
      (fun letter exhausted => ⟨dispatcher, exhausted⟩) initial.shared
      (supports task (by simp))
    refine initial.enter kept extends_ ?_
    intro tasks error processing other member
    simp only [DispatcherState.processing.injEq] at processing
    rw [← processing.1, mem_append, mem_cons] at member
    rcases member with old | rfl | old
    · exact (supports other (by simp [old])).mono extends_
    · exact next
    · exact (supports other (by simp [old])).mono extends_
  | finishBatch _ _ firstError =>
    refine initial.enter initial.shared same ?_
    intro others error processing
    cases firstError <;> cases processing
  | interrupt | shutdown =>
    exact initial.enter initial.shared same nofun

theorem ReachableWhen.invariant (injective : Function.Injective source)
    {allowed : DispatchWorld ι → Action ι → Prop} {after : DispatchWorld ι}
    (run : ReachableWhen allowed source config text world after)
    (initial : Invariant source config world) : Invariant source config after :=
  run.preserves (fun _ _ _ _ step => step.invariant injective) initial

/-- Every completed event was acknowledged after a handler call for it had
succeeded, and every dead one had reached the last attempt of a dispatcher. -/
theorem completed_handled (injective : Function.Injective source) {clock : Nat}
    (run : Reachable source config text (start clock) world) :
    (∀ id ∈ world.shared.run.outbox.completed, ∃ later earlier,
      world.shared.trace = later ++ .acknowledged id :: earlier ∧ .handled id ∈ earlier) ∧
      ∀ (id : Uuid) letter, world.shared.run.outbox.dead[id]? = some letter →
        ∃ dispatcher, (config dispatcher).maxAttempts ≤ letter.attempt := by
  have invariant := ReachableWhen.invariant injective run (invariant_start source config clock)
  exact ⟨invariant.shared.completed, invariant.shared.dead⟩

section Mail

variable {origin : DispatchWorld ι} {dispatcher : ι}

theorem advance (reached : Reachable source config text origin world)
    {delivery : OutboxDelivery} {stage next : DeliveryStage} {firstError : Option Error}
    (batch : world.dispatchers dispatcher = .processing [⟨delivery, stage⟩] firstError)
    {call : Option StoreCall} {shared : DispatchShared}
    (step : DeliveryStep (config dispatcher) text delivery world.shared stage call shared next) :
    ∃ after, Reachable source config text origin after ∧ after.shared = shared ∧
      after.dispatchers dispatcher = .processing [⟨delivery, next⟩] (next.firstError firstError) ∧
      ∀ other, other ≠ dispatcher → after.dispatchers other = world.dispatchers other := by
  refine ⟨_, Relation.ReflTransGen.tail reached ⟨_, trivial, Step.deliver dispatcher [] []
    ⟨delivery, stage⟩ firstError call shared next batch step⟩, rfl, ?_, ?_⟩
  · exact update_self _ _ _
  · intro other different
    exact update_of_ne different _ _

def mailDelivery (config : DispatcherConfig) : OutboxDelivery :=
  (OutboxEntry.unleased OutboxRun.mailEvent).delivery config.workerId 0 config.lease

def mailEntry (config : DispatcherConfig) : OutboxEntry :=
  (OutboxEntry.unleased OutboxRun.mailEvent).leaseTo config.workerId 0 config.lease

theorem default_clean : validateLease DispatcherConfig.default.workerId
    DispatcherConfig.default.batchSize DispatcherConfig.default.lease = .ok () := by
  decide

theorem mail_delivered (clean : validateLease (config dispatcher).workerId
      (config dispatcher).batchSize (config dispatcher).lease = .ok ()) :
    ∃ world, Reachable id config text (start 0) world ∧ world.shared.marks = ∅ ∧
      world.shared.trace = [] ∧ world.shared.run.clock = 0 ∧ world.shared.run.drawn = 1 ∧
      OutboxRun.Only world.shared.run.outbox (mailEntry (config dispatcher)) ∧
      world.dispatchers dispatcher =
        .processing [⟨mailDelivery (config dispatcher), .begun⟩] none ∧
      ∀ other, other ≠ dispatcher → world.dispatchers other = .polling := by
  obtain ⟨appended, only⟩ := OutboxRun.mail_appended
  let known : DispatchWorld ι := { start 0 with shared := { (start 0 : DispatchWorld ι).shared with
    run := ((OutboxRun.start 0).append OutboxRun.mailEvent).2 } }
  have first : Reachable id config text (start 0) known :=
    Relation.ReflTransGen.single ⟨_, trivial, Step.append OutboxRun.mailEvent⟩
  have knownOnly : OutboxRun.Only known.shared.run.outbox (.unleased OutboxRun.mailEvent) := by
    simp only [known]
    exact only
  have acquired := @OutboxRun.acquire_only _ known.shared.run id knownOnly 0 (by decide) _ _ _ clean
  have drawn : known.shared.run.drawn = 0 := by simp only [known, appended]
  have clock : known.shared.run.clock = 0 := by simp only [known, appended]
  rw [drawn, Nat.zero_add] at acquired
  refine ⟨_, Relation.ReflTransGen.tail first
    ⟨_, trivial, Step.acquire dispatcher 0 (Nat.zero_le _) rfl⟩, rfl, rfl, ?_, ?_, ?_, ?_, ?_⟩
  · simp only [acquire, acquired]
    exact clock
  · simp only [acquire, acquired, enter]
  · simp only [acquire, acquired]
    exact knownOnly.insert rfl
  · simp only [acquire, acquired]
    exact update_self _ _ _
  · intro other different
    exact update_of_ne different _ _

theorem mail_holds {outbox : MemoryOutbox} {config : DispatcherConfig} (positive : 0 < config.lease)
    (only : OutboxRun.Only outbox (mailEntry config)) :
    outbox.Holds (mailDelivery config) 0 :=
  ⟨mailEntry config, (only _).trans (if_pos rfl), rfl, rfl, config.lease, rfl, positive⟩

theorem mail_completed : ∃ world : DispatchWorld Unit,
    Reachable id (fun _ => .default) (Error.display (fun _ => "")) (start 0) world ∧
      1 ∈ world.shared.run.outbox.completed ∧
      ∃ later earlier, world.shared.trace = later ++ .acknowledged 1 :: earlier ∧
        .handled 1 ∈ earlier := by
  obtain ⟨begun, reached, _, _, clock, _, only, batch, _⟩ :=
    @mail_delivered Unit _ (fun _ => .default) (Error.display (fun _ => "")) () default_clean
  obtain ⟨handling, reached, sharedHandling, batch, _⟩ :=
    advance reached batch (.unchecked rfl)
  obtain ⟨handled, reached, sharedHandled, batch, _⟩ :=
    advance reached batch (.handled (.ok ()) (.inl rfl))
  obtain ⟨ready, reached, sharedReady, batch, _⟩ := advance reached batch (.unmarked rfl)
  obtain ⟨done, reached, sharedDone, _, _⟩ := advance reached batch .ack
  have run : ready.shared.run = begun.shared.run := by
    rw [sharedReady, sharedHandled, sharedHandling]
  have holds : ready.shared.run.outbox.Holds (mailDelivery .default) ready.shared.run.clock := by
    rw [run, clock]
    exact mail_holds (by decide) only
  have completed : 1 ∈ done.shared.run.outbox.completed := by
    rw [sharedDone, DispatchShared.ack]
    rcases ready.shared.run.ack_cases (mailDelivery .default) with
      ⟨error, failed⟩ | ⟨entry, found, _, acked⟩
    · have accepted := (ready.shared.run.ack_ok_iff _).mpr holds
      rw [failed] at accepted
      cases accepted
    · rw [run] at found
      obtain rfl := Option.some.inj (((only _).trans (if_pos rfl)).symm.trans found)
      rw [acked]
      exact Std.ExtTreeMap.mem_insert.mpr (.inl rfl)
  exact ⟨done, reached, completed, (completed_handled injective_id reached).1 1 completed⟩

/-- A dispatcher does to the store only what a worker of the outbox can do. -/
theorem Step.refines {action : Action ι} {after : DispatchWorld ι}
    (step : Step source config text world action after) :
    OutboxRun.Reachable source world.shared.run after.shared.run := by
  cases step with
  | tick _ forward => exact .single (.tick _ forward)
  | append => exact .single (.append _)
  | replayDeadLetter => exact .single (.replayDeadLetter _ _)
  | acquire _ _ past => exact .single (.acquire _ _ _ _ past)
  | deliver _ _ _ task _ _ _ _ _ progress =>
    cases task
    cases progress with
    | ackDuplicate | ack =>
      simp only [enter, DispatchShared.ack_result]
      exact .single (.ack _)
    | settleFailure _ _ _ _ forward =>
      simp only [enter, DispatchShared.settleFailure]
      split
      · exact .single (.deadLetter _ _ _ forward)
      · exact .single (.retry _ _ _ _ forward)
    | renewed _ _ _ forward | renewalFailed _ _ _ forward => exact .single (.renew _ _ _ forward)
    | _ => exact .refl
  | _ => exact .refl

end Mail

end DispatchWorld

end Elura
