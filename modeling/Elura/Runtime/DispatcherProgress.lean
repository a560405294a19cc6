import Elura.Runtime.DispatcherSafety

/-!
What happens to a failing delivery: it is settled as long as the text of its error fits the
store's limit.
-/

namespace Elura

open List

open OrderedMap (getElem?_insert_ite getElem?_erase_ite)

open OutboxRecord (deliveries)

variable {source : Nat → Uuid} {config : DispatcherConfig} {text : Error → String}
  {delivery : OutboxDelivery}

namespace OutboxRun

variable {source : Nat → Uuid} {run : OutboxRun} {event : Uuid} {limit : Nat}

structure Bounded (event : Uuid) (limit : Nat) (run : OutboxRun) : Prop where
  count : deliveries event run.log ≤ limit
  waiting : ∀ entry, run.outbox.active[event]? = some entry → entry.leaseUntil = none →
    deliveries event run.log < limit

section

variable (bounded : Bounded event limit run)
include bounded
variable {outbox : MemoryOutbox} {clock : Nat} {record : OutboxRecord}

theorem Bounded.atClock (clock : Nat) :
    Bounded event limit { run with clock } :=
  ⟨bounded.count, bounded.waiting⟩

theorem Bounded.other (other : record.id ≠ event)
    (same : outbox.active[event]? = run.outbox.active[event]?) :
    Bounded event limit { run with outbox, clock, log := record :: run.log } := by
  have count := OutboxRecord.deliveries_other other run.log
  refine ⟨count ▸ bounded.count, ?_⟩
  intro entry found free
  rw [count]
  exact bounded.waiting entry (same.symm.trans found) free

theorem Bounded.settle_onLease {check : Except Error Unit} {delivery : OutboxDelivery} {now : Nat}
    {change : OutboxEntry → MemoryOutbox → MemoryOutbox}
    (quiet : deliveries event (record :: run.log) = deliveries event run.log)
    (others : ∀ entry, delivery.event.id ≠ event →
      (change entry run.outbox).active[event]? = run.outbox.active[event]?)
    (own : delivery.event.id = event → ∀ entry, run.outbox.active[delivery.event.id]? = some entry →
      entry.HeldBy delivery now → ∀ stored, (change entry run.outbox).active[event]? = some stored →
      stored.leaseUntil = none → deliveries event run.log < limit) :
    Bounded event limit
      (run.settle (MemoryOutbox.onLease check delivery now change) record).2 := by
  rcases run.settle_onLease_cases check delivery now change record with
    ⟨error, failed⟩ | ⟨entry, found, held, settled⟩
  · rw [failed]
    exact bounded
  · rw [settled]
    refine ⟨quiet ▸ bounded.count, ?_⟩
    intro stored present free
    refine quiet ▸ ?_
    by_cases same : delivery.event.id = event
    · exact own same entry found held stored present free
    · exact bounded.waiting stored (others entry same ▸ present) free

theorem Bounded.ack (delivery : OutboxDelivery) :
    Bounded event limit (run.ack delivery).2 := by
  refine bounded.settle_onLease rfl ?_ ?_
  · simp +contextual [getElem?_erase_ite]
  · intro same _ _ _ stored found
    simp [same] at found

theorem Bounded.renew (delivery : OutboxDelivery)
    (lease later : Nat) : Bounded event limit (run.renew delivery lease later).2 := by
  refine (bounded.settle_onLease rfl ?_ ?_).atClock later
  · simp +contextual [getElem?_insert_ite]
  · intro same _ _ _ stored found free
    simp only [getElem?_insert_ite, same, if_true, Option.some.injEq] at found
    subst stored
    cases free

theorem Bounded.deadLetter (delivery : OutboxDelivery)
    (reason : String) (later : Nat) :
    Bounded event limit (run.deadLetter delivery reason later).2 := by
  refine (bounded.settle_onLease rfl ?_ ?_).atClock later
  · simp +contextual [getElem?_erase_ite]
  · intro same _ _ _ stored found
    simp [same] at found

theorem Bounded.retry {delivery : OutboxDelivery}
    (below : delivery.event.id = event → ∀ entry,
      run.outbox.active[delivery.event.id]? = some entry → entry.HeldBy delivery run.clock →
      deliveries event run.log < limit) (availableAt : Nat) (reason : String) (later : Nat) :
    Bounded event limit (run.retry delivery availableAt reason later).2 := by
  refine (bounded.settle_onLease rfl ?_ ?_).atClock later
  · simp +contextual [getElem?_insert_ite]
  · exact fun same entry found held _ _ _ => below same entry found held

theorem Bounded.append (invariant : run.Invariant source)
    (positive : 0 < limit) (appended : OutboxEvent) :
    Bounded event limit (run.append appended).2 := by
  unfold OutboxRun.append settle
  rcases MemoryOutbox.append_cases run.outbox appended with
    ⟨error, failed⟩ | ⟨called, _⟩ | ⟨_, absent, called⟩
  · rw [failed]
    exact bounded
  · rw [called]
    exact ⟨bounded.count, bounded.waiting⟩
  · rw [called]
    by_cases same : appended.id = event
    · obtain ⟨undelivered, _⟩ := (invariant.consistent appended.id).unknown absent
      rw [same] at undelivered
      have none_ : deliveries event (.appended appended.id :: run.log) = 0 := undelivered
      exact ⟨by rw [none_]; omega, fun _ _ _ => by rw [none_]; exact positive⟩
    · refine bounded.other same ?_
      simp only [getElem?_insert_ite, if_neg same]

theorem Bounded.replayDeadLetter (positive : 0 < limit)
    (id : Uuid) (availableAt : Nat) :
    Bounded event limit (run.replayDeadLetter id availableAt).2 := by
  unfold OutboxRun.replayDeadLetter settle
  rcases MemoryOutbox.replayDeadLetter_cases run.outbox id availableAt run.clock with
    ⟨_, failed⟩ | ⟨letter, _, called⟩
  · rw [failed]
    exact bounded
  · rw [called]
    by_cases same : id = event
    · have none_ : deliveries event (.replayed id :: run.log) = 0 := by
        simp [deliveries, same]
      exact ⟨by rw [none_]; omega, fun _ _ _ => by rw [none_]; exact positive⟩
    · refine bounded.other same ?_
      simp only [getElem?_insert_ite, if_neg same]

/-- Every listed event is delivered once; the event in question only if it is not
leased. -/
theorem Bounded.deliver (invariant : run.Invariant source)
    {id : Uuid} {entry : OutboxEntry} (found : run.outbox.active[id]? = some entry)
    (free : id = event → entry.leaseUntil = none) (worker : String) (leaseUntil : Nat) :
    Bounded event limit { run with
      outbox := { run.outbox with
        active := run.outbox.active.insert id
          (entry.leaseTo worker (source run.drawn) leaseUntil) }
      drawn := run.drawn + 1
      log := .delivered (entry.delivery worker (source run.drawn) leaseUntil) :: run.log } := by
  obtain ⟨tracks, _⟩ := (invariant.consistent id).active entry found
  by_cases same : id = event
  · have waits := bounded.waiting entry (same ▸ found) (free same)
    have counted : deliveries event
        (.delivered (entry.delivery worker (source run.drawn) leaseUntil) :: run.log) =
        deliveries event run.log + 1 := by
      simp only [deliveries, OutboxEntry.delivery, tracks.named, same, if_true]
    refine ⟨by rw [counted]; omega, ?_⟩
    intro stored present unleased
    simp only [getElem?_insert_ite, same, if_true, Option.some.injEq] at present
    subst stored
    cases unleased
  · have other : (OutboxRecord.delivered
        (entry.delivery worker (source run.drawn) leaseUntil)).id ≠ event := by
      simp only [OutboxRecord.id, OutboxEntry.delivery, tracks.named]
      exact same
    have count := OutboxRecord.deliveries_other other run.log
    refine ⟨count ▸ bounded.count, ?_⟩
    intro stored present unleased
    simp only [getElem?_insert_ite, if_neg same] at present
    rw [count]
    exact bounded.waiting stored present unleased

end

theorem Bounded.issue (injective : Function.Injective source) (bounded : Bounded event limit run)
    (invariant : run.Invariant source) (worker : String) (leaseUntil : Nat) {ids : List Uuid}
    (distinct : ids.Nodup)
    (free : event ∈ ids → ∀ entry, run.outbox.active[event]? = some entry →
      entry.leaseUntil = none) :
    let outcome := MemoryOutbox.issue source worker leaseUntil ids run.drawn run.outbox
    Bounded event limit { run with
      outbox := outcome.2
      drawn := run.drawn + outcome.1.length
      log := (outcome.1.map .delivered).reverse ++ run.log } := by
  induction ids generalizing run with
  | nil => exact bounded
  | cons id _ ih =>
    obtain ⟨fresh, distinctRest⟩ := nodup_cons.mp distinct
    simp only [MemoryOutbox.issue]
    cases found : run.outbox.active[id]? with
    | none =>
      exact ih bounded invariant distinctRest
        (fun member => free (mem_cons_of_mem _ member))
    | some entry =>
      have delivered := invariant.deliver injective found worker leaseUntil
      have step := bounded.deliver invariant found
        (fun same => free (same ▸ mem_cons_self) entry (same ▸ found)) worker leaseUntil
      have after := ih step delivered distinctRest (by
        intro member stored present
        have different : id ≠ event := fun same => fresh (same ▸ member)
        simp only [getElem?_insert_ite, if_neg different] at present
        exact free (mem_cons_of_mem _ member) stored present)
      simp only [length_cons, map_cons, reverse_cons, append_assoc]
      rw [← Nat.add_assoc, Nat.add_right_comm]
      exact after

theorem Bounded.acquire (injective : Function.Injective source) (bounded : Bounded event limit run)
    (invariant : run.Invariant source) {read : Nat}
    (live : ∀ entry, run.outbox.active[event]? = some entry → ∀ leaseUntil,
      entry.leaseUntil = some leaseUntil → read < leaseUntil)
    (worker : String) (size lease : Nat) :
    Bounded event limit (run.acquire source worker size lease read).2 := by
  unfold OutboxRun.acquire
  rcases MemoryOutbox.acquire_cases run.outbox source run.drawn worker size lease read with
    ⟨error, _, failed⟩ | ⟨_, called⟩
  · rw [failed]
    exact bounded
  · rw [called]
    refine bounded.issue injective invariant worker (read + lease)
      ((run.outbox.candidates_nodup read).sublist (take_sublist _ _)) ?_
    intro member entry found
    obtain ⟨stored, present, eligible⟩ :=
      (MemoryOutbox.mem_candidates run.outbox read event).mp (mem_of_mem_take member)
    obtain rfl := Option.some.inj (found.symm.trans present)
    cases leased : entry.leaseUntil with
    | none => rfl
    | some leaseUntil =>
      have unexpired := live entry found leaseUntil leased
      simp only [OutboxEntry.eligible, leased, Option.all_some, Bool.and_eq_true,
        decide_eq_true_eq] at eligible
      omega

end OutboxRun

def Settled (config : DispatcherConfig) (delivery : OutboxDelivery) (earliest : Nat)
    (outbox : MemoryOutbox) : Prop :=
  if config.maxAttempts ≤ delivery.attempt then
    delivery.event.id ∈ outbox.dead ∧ delivery.event.id ∉ outbox.active
  else ∃ entry, outbox.active[delivery.event.id]? = some entry ∧ entry.leaseUntil = none ∧
    entry.event.availableAt = earliest

theorem DispatchShared.settleFailure_ok_iff (shared : DispatchShared) (config : DispatcherConfig)
    (text : Error → String) (delivery : OutboxDelivery) (error : Error) (read later : Nat) :
    (shared.settleFailure config text delivery error read later).1 = .ok () ↔
      (text error).utf8ByteSize ≤ 4096 ∧ shared.run.outbox.Holds delivery shared.run.clock := by
  rw [← validateFailureReason_ok_iff]
  unfold DispatchShared.settleFailure
  split
  all_goals exact shared.run.settle_onLease_ok_iff _ delivery shared.run.clock _ _

theorem OutboxRun.settle_refused {run : OutboxRun} {check : Except Error Unit} {now : Nat}
    {change : OutboxEntry → MemoryOutbox → MemoryOutbox} {record : OutboxRecord}
    (refused : (run.settle (MemoryOutbox.onLease check delivery now change) record).1 ≠ .ok ()) :
    ∃ error, run.settle (MemoryOutbox.onLease check delivery now change) record =
      (.error error, run) := by
  rcases run.settle_onLease_cases check delivery now change record with failed | ⟨_, _, _, settled⟩
  · exact failed
  · exact absurd (congrArg Prod.fst settled) refused

theorem OutboxRun.settle_done {run : OutboxRun} {check : Except Error Unit} {now : Nat}
    {change : OutboxEntry → MemoryOutbox → MemoryOutbox} {record : OutboxRecord}
    (done : (run.settle (MemoryOutbox.onLease check delivery now change) record).1 = .ok ()) :
    ∃ entry, run.outbox.active[delivery.event.id]? = some entry ∧
      (run.settle (MemoryOutbox.onLease check delivery now change) record).2.outbox =
        change entry run.outbox := by
  rcases run.settle_onLease_cases check delivery now change record with
    ⟨_, failed⟩ | ⟨entry, found, _, settled⟩
  · cases (congrArg Prod.fst failed).symm.trans done
  · exact ⟨entry, found, congrArg (·.2.outbox) settled⟩

theorem DispatchShared.perform_refused (shared : DispatchShared) (config : DispatcherConfig)
    (text : Error → String) (delivery : OutboxDelivery) (call : StoreCall)
    (refused : (shared.perform config text delivery call).1 ≠ .ok ()) :
    (∃ error, (shared.perform config text delivery call).1 = .error error) ∧
      (shared.perform config text delivery call).2.run.outbox = shared.run.outbox := by
  cases call with
  | ack =>
    simp only [perform] at refused ⊢
    obtain ⟨result, run⟩ := shared.ack_result delivery
    rw [result] at refused
    obtain ⟨error, failed⟩ := OutboxRun.settle_refused refused
    rw [result, run]
    exact ⟨⟨error, congrArg Prod.fst failed⟩, congrArg (·.2.outbox) failed⟩
  | renew later =>
    obtain ⟨error, failed⟩ := OutboxRun.settle_refused refused
    exact ⟨⟨error, congrArg Prod.fst failed⟩, congrArg (·.2.outbox) failed⟩
  | settleFailure error read later =>
    simp only [perform, DispatchShared.settleFailure] at refused ⊢
    split_ifs at refused ⊢
    all_goals
      obtain ⟨error, failed⟩ := OutboxRun.settle_refused refused
      exact ⟨⟨error, congrArg Prod.fst failed⟩, congrArg (·.2.outbox) failed⟩

theorem DispatchShared.settleFailure_settled {shared : DispatchShared}
    (invariant : shared.run.Invariant source) {error : Error} {read later : Nat}
    (succeeded : (shared.settleFailure config text delivery error read later).1 = .ok ()) :
    Settled config delivery (max (read + config.backoff delivery.attempt) later)
      (shared.settleFailure config text delivery error read later).2.run.outbox := by
  unfold DispatchShared.settleFailure at succeeded ⊢
  unfold Settled
  split at succeeded
  · rename_i exhausted
    simp only [if_pos exhausted]
    obtain ⟨entry, found, buried⟩ := OutboxRun.settle_done succeeded
    obtain ⟨tracks, _⟩ := (invariant.consistent _).active entry found
    refine (congrArg (fun outbox => _ ∈ outbox.dead ∧ _ ∉ outbox.active) buried).mpr ?_
    rw [tracks.named]
    exact ⟨Std.ExtTreeMap.mem_insert_self, by simp⟩
  · rename_i remaining
    simp only [if_neg remaining]
    obtain ⟨entry, _, retried⟩ := OutboxRun.settle_done succeeded
    exact ⟨_, (congrArg (·.active[delivery.event.id]?) retried).trans
      Std.ExtTreeMap.getElem?_insert_self, rfl, rfl⟩

theorem DeliveryStep.bounded {buried : DeadLetter → Prop} {before after : DispatchShared}
    {stage next : DeliveryStage} {call : Option StoreCall}
    (step : DeliveryStep config text delivery before stage call after next) {event : Uuid}
    {limit : Nat} (small : limit ≤ u32Max) (attempts : config.maxAttempts ≤ limit)
    (invariant : before.Invariant source buried) (delivered : .delivered delivery ∈ before.run.log)
    (bounded : before.run.Bounded event limit) : after.run.Bounded event limit := by
  have acked : (before.ack delivery).2.run.Bounded event limit := by
    rw [(before.ack_result delivery).2]
    exact bounded.ack delivery
  cases step with
  | ackDuplicate | ack => exact acked
  | settleFailure error read later past forward =>
    unfold DispatchShared.settleFailure
    split
    · exact bounded.deadLetter delivery _ later
    · rename_i remaining
      refine bounded.retry ?_ _ _ later
      rintro rfl entry found held
      have attempt := invariant.attempt_eq delivered found held
      obtain ⟨tracks, _⟩ := (invariant.run.consistent _).active entry found
      have counted := tracks.counted
      omega
  | renewed _ _ later | renewalFailed _ _ later => exact bounded.renew delivery _ later
  | _ => exact bounded

namespace DispatchWorld

variable {ι : Type} [DecidableEq ι] {source : Nat → Uuid} {config : ι → DispatcherConfig}
  {text : Error → String} {world : DispatchWorld ι}

def LeaseLive (event : Uuid) (world : DispatchWorld ι) : Action ι → Prop
  | .acquire _ read => ∀ entry, world.shared.run.outbox.active[event]? = some entry →
      ∀ leaseUntil, entry.leaseUntil = some leaseUntil → read < leaseUntil
  | _ => True

theorem Step.bounded (injective : Function.Injective source) {event : Uuid} {limit : Nat}
    (positive : 0 < limit) (small : limit ≤ u32Max)
    (limits : ∀ dispatcher, (config dispatcher).maxAttempts ≤ limit) {action : Action ι}
    {after : DispatchWorld ι} (step : Step source config text world action after)
    (live : LeaseLive event world action) (invariant : Invariant source config world)
    (bounded : world.shared.run.Bounded event limit) : after.shared.run.Bounded event limit := by
  have run := invariant.shared.run
  cases step with
  | tick later => exact bounded.atClock later
  | append appended => exact bounded.append run positive appended
  | replayDeadLetter id availableAt => exact bounded.replayDeadLetter positive id availableAt
  | acquire => exact bounded.acquire injective run live _ _ _
  | deliver dispatcher _ _ task _ _ shared _ batch progress =>
    exact progress.bounded small (limits dispatcher) invariant.shared
      (invariant.tasks dispatcher _ _ batch task (by simp)).delivered bounded
  | finishBatch | interrupt | shutdown => exact bounded

theorem ReachableWhen.bounded (injective : Function.Injective source) {event : Uuid} {limit : Nat}
    (positive : 0 < limit) (small : limit ≤ u32Max)
    (limits : ∀ dispatcher, (config dispatcher).maxAttempts ≤ limit) {clock : Nat}
    (run : ReachableWhen (LeaseLive event) source config text (start clock) world) :
    world.shared.run.Bounded event limit := by
  have initial : (start clock : DispatchWorld ι).shared.run.Bounded event limit := by
    refine ⟨Nat.zero_le _, ?_⟩
    intro entry found
    simp [start, OutboxRun.start, MemoryOutbox.new] at found
  have both := run.preserves (fun _ _ _ live step (known : Invariant source config _ ∧ _) =>
    ⟨step.invariant injective known.1,
      step.bounded injective positive small limits live known.1 known.2⟩)
    ⟨invariant_start source config clock, initial⟩
  exact both.2

/-- A delivery that fails while its lease is live is settled, and its batch goes
on without an error, exactly when the error's text fits the store's limit. While
no lease of an event runs out, the event is delivered at most `limit` times. -/
theorem failing_delivery_settled_iff (injective : Function.Injective source) {clock : Nat} :
    (∀ world, Reachable source config text (start clock) world →
      ∀ dispatcher before after delivery error firstError read later,
        world.dispatchers dispatcher =
          .processing (before ++ ⟨delivery, .failing error⟩ :: after) firstError →
        world.shared.run.outbox.Holds delivery world.shared.run.clock →
        read ≤ world.shared.run.clock → world.shared.run.clock ≤ later →
        ∃ next, Step source config text world
            (.deliver dispatcher delivery (some (.settleFailure error read later))) next ∧
          ((Settled (config dispatcher) delivery
              (max (read + (config dispatcher).backoff delivery.attempt) later)
              next.shared.run.outbox ∧
            next.dispatchers dispatcher =
              .processing (before ++ ⟨delivery, .finished (.ok ())⟩ :: after) firstError) ↔
            (text error).utf8ByteSize ≤ 4096)) ∧
      ∀ event limit, 0 < limit → limit ≤ u32Max →
        (∀ dispatcher, (config dispatcher).maxAttempts ≤ limit) →
        ∀ world, ReachableWhen (LeaseLive event) source config text (start clock) world →
          deliveries event world.shared.run.log ≤ limit := by
  refine ⟨?_, fun event limit positive small limits world run =>
    (ReachableWhen.bounded injective positive small limits run).count⟩
  intro world reached dispatcher before after delivery error firstError read later batch holds past
    forward
  have invariant := ReachableWhen.invariant injective reached (invariant_start source config clock)
  refine ⟨_, Step.deliver dispatcher before after ⟨delivery, .failing error⟩ firstError
    (some (.settleFailure error read later)) _ _ batch
    (.settleFailure error read later past forward), ?_⟩
  have accepted := world.shared.settleFailure_ok_iff (config dispatcher) text delivery error read
    later
  constructor
  · rintro ⟨_, same⟩
    simp only [enter, Function.update_self, DispatcherState.processing.injEq,
      append_cancel_left_eq, cons.injEq, DeliveryTask.mk.injEq, true_and, and_true,
      DeliveryStage.finished.injEq] at same
    exact (accepted.mp same.1).1
  · intro short
    have succeeded := accepted.mpr ⟨short, holds⟩
    refine ⟨DispatchShared.settleFailure_settled invariant.shared.run succeeded, ?_⟩
    simp only [enter, Function.update_self, succeeded]
    cases firstError <;> rfl

section FailingMail

/-- The display texts used in the concrete runs; no `io` error occurs in them. -/
def plainText : Error → String :=
  Error.display (fun _ => "")

theorem mail_failing {error : Error} (failure : error ≠ .alreadyProcessed) :
    ∃ world : DispatchWorld Unit,
      Reachable id (fun _ => .default) plainText (start 0) world ∧
      world.shared.run.clock = 0 ∧
      world.shared.run.outbox.Holds (mailDelivery .default) world.shared.run.clock ∧
      world.dispatchers () = .processing [⟨mailDelivery .default, .failing error⟩] none := by
  obtain ⟨begun, reached, _, _, clock, _, only, batch, _⟩ :=
    @mail_delivered Unit _ (fun _ => .default) plainText () default_clean
  obtain ⟨handling, reached, sharedHandling, batch, _⟩ := advance reached batch (.unchecked rfl)
  obtain ⟨failing, reached, sharedFailing, batch, _⟩ :=
    advance reached batch (.failed error failure)
  rw [← sharedHandling, ← sharedFailing] at clock only
  refine ⟨failing, reached, clock, ?_, batch⟩
  rw [clock]
  exact mail_holds (by decide) only

theorem mail_retried : ∃ world next : DispatchWorld Unit,
    Reachable id (fun _ => .default) plainText (start 0) world ∧
      Step id (fun _ => .default) plainText world (.deliver () (mailDelivery .default)
        (some (.settleFailure .timeout 0 0))) next ∧
      Settled .default (mailDelivery .default) 1000 next.shared.run.outbox := by
  obtain ⟨world, reached, clock, holds, batch⟩ := mail_failing (by decide : Error.timeout ≠ _)
  obtain ⟨next, step, settled⟩ := (failing_delivery_settled_iff Function.injective_id).1 world
    reached () [] [] _ _ _ 0 0 batch holds (Nat.zero_le _) (le_of_eq clock)
  have short : (plainText .timeout).utf8ByteSize ≤ 4096 := by decide
  exact ⟨world, next, reached, step, (settled.mpr short).1⟩

def repeatedText (count : Nat) : String :=
  String.ofList (List.replicate count 'x')

theorem repeatedText_size (count : Nat) : (repeatedText count).utf8ByteSize = count := by
  rw [repeatedText, String.utf8ByteSize_ofList]
  induction count with
  | zero => rfl
  | succ _ ih =>
    rw [replicate_succ, String.utf8Len_cons, ih]
    rfl

theorem internal_longer (message : String) :
    message.utf8ByteSize < (plainText (.internal message)).utf8ByteSize := by
  have shown : plainText (.internal message) = "internal error: " ++ message := rfl
  rw [shown, String.utf8ByteSize_append]
  exact Nat.lt_add_of_pos_left (by decide)

/-- The handler's error has a long text. The lease is live, yet the event is
neither scheduled nor buried, and the dispatcher stops. -/
theorem mail_longError : ∃ world next stopped : DispatchWorld Unit,
    Reachable id (fun _ => .default) plainText (start 0) world ∧
      world.dispatchers () = .processing
        [⟨mailDelivery .default, .failing (.internal (repeatedText 4096))⟩] none ∧
      world.shared.run.outbox.Holds (mailDelivery .default) world.shared.run.clock ∧
      Step id (fun _ => .default) plainText world (.deliver () (mailDelivery .default)
        (some (.settleFailure (.internal (repeatedText 4096)) 0 0))) next ∧
      next.shared.run.outbox = world.shared.run.outbox ∧
      Step id (fun _ => .default) plainText next (.finishBatch ()) stopped ∧
      ∃ refusal, stopped.dispatchers () = .stopped (.error refusal) := by
  have long := internal_longer (repeatedText 4096)
  have failure : Error.internal (repeatedText 4096) ≠ .alreadyProcessed := nofun
  rw [repeatedText_size] at long
  generalize Error.internal (repeatedText 4096) = error at long failure ⊢
  obtain ⟨world, reached, clock, holds, batch⟩ := mail_failing failure
  have refused : (world.shared.settleFailure .default plainText (mailDelivery .default)
      error 0 0).1 ≠ .ok () := by
    intro accepted
    exact Nat.not_le.mpr long ((world.shared.settleFailure_ok_iff _ _ _ _ _ _).mp accepted).1
  obtain ⟨⟨refusal, failed⟩, unchanged⟩ := world.shared.perform_refused .default plainText
    (mailDelivery .default) (.settleFailure error 0 0) refused
  have stage : (DeliveryStage.finished (world.shared.settleFailure .default plainText
      (mailDelivery .default) error 0 0).1).firstError none = some refusal := by
    rw [show (world.shared.settleFailure .default plainText (mailDelivery .default)
      error 0 0).1 = .error refusal from failed]
    rfl
  refine ⟨world, _, _, reached, batch, holds, .deliver () [] []
    ⟨mailDelivery .default, .failing error⟩ none _ _ _ batch
    (.settleFailure _ 0 0 (Nat.zero_le _) (le_of_eq clock)), unchanged, .finishBatch () _ _
    (enter_self _ _ _) ?_, refusal, ?_⟩
  · intro task member
    rw [nil_append, mem_singleton] at member
    exact ⟨_, by rw [member]⟩
  · refine (enter_self _ _ _).trans ?_
    rw [stage]
    rfl

end FailingMail

end DispatchWorld

end Elura
