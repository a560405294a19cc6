import Elura.Core.Outbox

/-!
Runs of any number of workers on one in-memory outbox, with a clock that never goes back. The log
of what succeeded, newest first, says which delivery of an event is the current one.
-/

namespace Elura

open List Option

open MemoryOutbox (existing_eq_none_iff acquire_cases append_cases replayDeadLetter_cases)
open Fallible
open OrderedMap (getElem?_insert_ite getElem?_erase_ite)

inductive OutboxRecord
  | appended (id : Uuid)
  | delivered (delivery : OutboxDelivery)
  | renewed (id : Uuid) (leaseUntil : Nat)
  | released (id : Uuid)
  | completed (id : Uuid)
  | buried (id : Uuid)
  | replayed (id : Uuid)
  deriving DecidableEq, Repr

namespace OutboxRecord

variable {record : OutboxRecord} {event : Uuid}

def id : OutboxRecord → Uuid
  | .appended id => id
  | .delivered delivery => delivery.event.id
  | .renewed id _ => id
  | .released id => id
  | .completed id => id
  | .buried id => id
  | .replayed id => id

def lastDelivery (event : Uuid) : List OutboxRecord → Option OutboxDelivery
  | [] => none
  | .delivered delivery :: earlier =>
    if delivery.event.id = event then some delivery else lastDelivery event earlier
  | _ :: earlier => lastDelivery event earlier

def leaseEnd (event : Uuid) : List OutboxRecord → Option Nat
  | [] => none
  | .appended _ :: earlier => leaseEnd event earlier
  | .delivered delivery :: earlier =>
    if delivery.event.id = event then some delivery.leaseUntil else leaseEnd event earlier
  | .renewed id leaseUntil :: earlier =>
    if id = event then some leaseUntil else leaseEnd event earlier
  | .released id :: earlier => if id = event then none else leaseEnd event earlier
  | .completed id :: earlier => if id = event then none else leaseEnd event earlier
  | .buried id :: earlier => if id = event then none else leaseEnd event earlier
  | .replayed id :: earlier => if id = event then none else leaseEnd event earlier

def deliveries (event : Uuid) : List OutboxRecord → Nat
  | [] => 0
  | .delivered delivery :: earlier =>
    if delivery.event.id = event then deliveries event earlier + 1 else deliveries event earlier
  | .replayed id :: earlier => if id = event then 0 else deliveries event earlier
  | _ :: earlier => deliveries event earlier

theorem lastDelivery_other (other : record.id ≠ event) (log : List OutboxRecord) :
    lastDelivery event (record :: log) = lastDelivery event log := by
  cases record <;> simp_all [lastDelivery, id]

theorem leaseEnd_other (other : record.id ≠ event) (log : List OutboxRecord) :
    leaseEnd event (record :: log) = leaseEnd event log := by
  cases record <;> simp_all [leaseEnd, id]

theorem deliveries_other (other : record.id ≠ event) (log : List OutboxRecord) :
    deliveries event (record :: log) = deliveries event log := by
  cases record <;> simp_all [deliveries, id]

theorem lastDelivery_mem {log : List OutboxRecord} {delivery : OutboxDelivery}
    (last : lastDelivery event log = some delivery) :
    .delivered delivery ∈ log ∧ delivery.event.id = event := by
  induction log with
  | nil => cases last
  | cons record earlier ih =>
    cases record with
    | delivered newest =>
      simp only [lastDelivery] at last
      split at last
      · rename_i same
        obtain rfl := some.inj last
        exact ⟨mem_cons_self, same⟩
      · exact ⟨mem_cons_of_mem _ (ih last).1, (ih last).2⟩
    | _ => exact ⟨mem_cons_of_mem _ (ih last).1, (ih last).2⟩

def tokens (log : List OutboxRecord) : List Uuid :=
  log.filterMap (fun record =>
    match record with
    | .delivered delivery => some delivery.token
    | _ => none)

end OutboxRecord

open OutboxRecord (lastDelivery leaseEnd deliveries tokens)

structure OutboxRun where
  outbox : MemoryOutbox
  clock : Nat
  drawn : Nat
  log : List OutboxRecord

namespace OutboxRun

def start (clock : Nat) : OutboxRun where
  outbox := .new
  clock
  drawn := 0
  log := []

def settle (run : OutboxRun) (method : Fallible MemoryOutbox Error Unit) (record : OutboxRecord) :
    Except Error Unit × OutboxRun :=
  match method.call run.outbox with
  | (.ok (), outbox) => (.ok (), { run with outbox, log := record :: run.log })
  | (.error error, outbox) => (.error error, { run with outbox })

def append (event : OutboxEvent) (run : OutboxRun) : Except Error Unit × OutboxRun :=
  run.settle (MemoryOutbox.append event) (.appended event.id)

def acquire (source : Nat → Uuid) (worker : String) (limit lease read : Nat) (run : OutboxRun) :
    Except Error (List OutboxDelivery) × OutboxRun :=
  match (MemoryOutbox.acquire source run.drawn worker limit lease read).call run.outbox with
  | (.ok deliveries, outbox) =>
    (.ok deliveries, { run with
      outbox
      drawn := run.drawn + deliveries.length
      log := (deliveries.map .delivered).reverse ++ run.log })
  | (.error error, outbox) => (.error error, { run with outbox })

def ack (delivery : OutboxDelivery) (run : OutboxRun) : Except Error Unit × OutboxRun :=
  run.settle (MemoryOutbox.ack delivery run.clock) (.completed delivery.event.id)

def renew (delivery : OutboxDelivery) (lease later : Nat) (run : OutboxRun) :
    Except Error Unit × OutboxRun :=
  let outcome := run.settle (MemoryOutbox.renew delivery lease run.clock later)
    (.renewed delivery.event.id (later + lease))
  (outcome.1, { outcome.2 with clock := later })

def retry (delivery : OutboxDelivery) (availableAt : Nat) (reason : String) (later : Nat)
    (run : OutboxRun) : Except Error Unit × OutboxRun :=
  let outcome := run.settle (MemoryOutbox.retry delivery availableAt reason run.clock later)
    (.released delivery.event.id)
  (outcome.1, { outcome.2 with clock := later })

def deadLetter (delivery : OutboxDelivery) (reason : String) (later : Nat) (run : OutboxRun) :
    Except Error Unit × OutboxRun :=
  let outcome := run.settle (MemoryOutbox.deadLetter delivery reason run.clock later)
    (.buried delivery.event.id)
  (outcome.1, { outcome.2 with clock := later })

def replayDeadLetter (id : Uuid) (availableAt : Nat) (run : OutboxRun) :
    Except Error Unit × OutboxRun :=
  run.settle (MemoryOutbox.replayDeadLetter id availableAt run.clock) (.replayed id)

/-- One call of any worker, or the passing of time. The deliveries handed to a
call may be stale or made up. -/
inductive Step (source : Nat → Uuid) (run : OutboxRun) : OutboxRun → Prop
  | tick (later : Nat) (forward : run.clock ≤ later) : Step source run { run with clock := later }
  | append (event : OutboxEvent) : Step source run (run.append event).2
  | acquire (worker : String) (limit lease read : Nat) (past : read ≤ run.clock) :
      Step source run (run.acquire source worker limit lease read).2
  | ack (delivery : OutboxDelivery) : Step source run (run.ack delivery).2
  | renew (delivery : OutboxDelivery) (lease later : Nat) (forward : run.clock ≤ later) :
      Step source run (run.renew delivery lease later).2
  | retry (delivery : OutboxDelivery) (availableAt : Nat) (reason : String) (later : Nat)
      (forward : run.clock ≤ later) :
      Step source run (run.retry delivery availableAt reason later).2
  | deadLetter (delivery : OutboxDelivery) (reason : String) (later : Nat)
      (forward : run.clock ≤ later) : Step source run (run.deadLetter delivery reason later).2
  | replayDeadLetter (id : Uuid) (availableAt : Nat) :
      Step source run (run.replayDeadLetter id availableAt).2

abbrev Reachable (source : Nat → Uuid) : OutboxRun → OutboxRun → Prop :=
  Relation.ReflTransGen (Step source)

section Invariant

variable {id : Uuid} {source : Nat → Uuid} {run : OutboxRun}

structure Tracks (log : List OutboxRecord) (id : Uuid) (entry : OutboxEntry) : Prop where
  named : entry.event.id = id
  counted : entry.attempt = min (deliveries id log) u32Max
  lease : entry.leaseUntil = leaseEnd id log
  holder : entry.leaseUntil ≠ none → ∃ delivery, lastDelivery id log = some delivery ∧
    entry.worker = some delivery.worker ∧ entry.token = some delivery.token ∧
    entry.event = delivery.event ∧ entry.attempt = delivery.attempt

structure Consistent (outbox : MemoryOutbox) (log : List OutboxRecord) (id : Uuid) : Prop where
  active : ∀ entry, outbox.active[id]? = some entry →
    Tracks log id entry ∧ outbox.dead[id]? = none ∧ outbox.completed[id]? = none
  dead : ∀ letter, outbox.dead[id]? = some letter → letter.event.id = id ∧
    letter.attempt = min (deliveries id log) u32Max ∧ outbox.completed[id]? = none
  unknown : outbox.existing id = none → deliveries id log = 0 ∧ leaseEnd id log = none
  known : .appended id ∈ log → outbox.existing id ≠ none

structure Invariant (source : Nat → Uuid) (run : OutboxRun) : Prop where
  consistent : ∀ id, Consistent run.outbox run.log id
  drawn : ∀ token ∈ tokens run.log, ∃ index < run.drawn, token = source index
  distinct : (tokens run.log).Nodup

def SameAt (before after : MemoryOutbox) (id : Uuid) : Prop :=
  after.active[id]? = before.active[id]? ∧ after.dead[id]? = before.dead[id]? ∧
    after.completed[id]? = before.completed[id]?

theorem SameAt.existing {before after : MemoryOutbox} (same : SameAt before after id) :
    after.existing id = before.existing id := by
  obtain ⟨active, dead, completed⟩ := same
  simp only [MemoryOutbox.existing, active, dead, completed]

theorem Consistent.frame {before after : MemoryOutbox} {log : List OutboxRecord}
    {record : OutboxRecord} (consistent : Consistent before log id) (same : SameAt before after id)
    (other : record.id ≠ id) : Consistent after (record :: log) id := by
  have existing := same.existing
  obtain ⟨active, dead, completed⟩ := same
  refine ⟨?_, ?_, ?_, ?_⟩
  · intro entry found
    rw [active] at found
    obtain ⟨tracks, notDead, notCompleted⟩ := consistent.active entry found
    refine ⟨⟨tracks.named, ?_, ?_, ?_⟩, dead.trans notDead, completed.trans notCompleted⟩
    · rw [OutboxRecord.deliveries_other other, tracks.counted]
    · rw [OutboxRecord.leaseEnd_other other, tracks.lease]
    · rw [OutboxRecord.lastDelivery_other other]
      exact tracks.holder
  · intro letter found
    rw [dead] at found
    obtain ⟨named, counted, notCompleted⟩ := consistent.dead letter found
    refine ⟨named, ?_, completed.trans notCompleted⟩
    rw [OutboxRecord.deliveries_other other, counted]
  · rw [existing, OutboxRecord.deliveries_other other, OutboxRecord.leaseEnd_other other]
    exact consistent.unknown
  · intro member
    rw [existing]
    rcases mem_cons.mp member with rfl | old
    · exact absurd rfl other
    · exact consistent.known old

theorem Consistent.of_active {outbox : MemoryOutbox} {log : List OutboxRecord} {entry : OutboxEntry}
    (found : outbox.active[id]? = some entry) (tracks : Tracks log id entry)
    (notDead : outbox.dead[id]? = none) (notCompleted : outbox.completed[id]? = none) :
    Consistent outbox log id := by
  refine ⟨?_, ?_, ?_, ?_⟩
  · intro stored present
    obtain rfl := some.inj (found.symm.trans present)
    exact ⟨tracks, notDead, notCompleted⟩
  · intro letter dead
    cases notDead.symm.trans dead
  · intro gone
    simp [existing_eq_none_iff, found] at gone
  · simp [existing_eq_none_iff, found]

/-- A call that records something about one event touches that event only. -/
theorem Invariant.record (invariant : Invariant source run) {outbox : MemoryOutbox}
    {record : OutboxRecord} (quiet : tokens (record :: run.log) = tokens run.log)
    (others : ∀ id, record.id ≠ id → SameAt run.outbox outbox id)
    (own : Consistent outbox (record :: run.log) record.id) :
    Invariant source { run with outbox, log := record :: run.log } := by
  refine ⟨?_, ?_, ?_⟩
  · intro id
    by_cases same : record.id = id
    · exact same ▸ own
    · exact (invariant.consistent id).frame (others id same) same
  · show ∀ token ∈ tokens (record :: run.log), _
    rw [quiet]
    exact invariant.drawn
  · show (tokens (record :: run.log)).Nodup
    rw [quiet]
    exact invariant.distinct

theorem Invariant.atClock (invariant : Invariant source run) (clock : Nat) :
    Invariant source { run with clock } :=
  ⟨invariant.consistent, invariant.drawn, invariant.distinct⟩

theorem invariant_start (source : Nat → Uuid) (clock : Nat) :
    Invariant source (start clock) := by
  refine ⟨fun id => ⟨?_, ?_, fun _ => ⟨rfl, rfl⟩, nofun⟩, nofun, nodup_nil⟩
  all_goals simp [start, MemoryOutbox.new]

section

variable (run : OutboxRun) (check : Except Error Unit) (delivery : OutboxDelivery) (now : Nat)
  (change : OutboxEntry → MemoryOutbox → MemoryOutbox) (record : OutboxRecord)

theorem settle_onLease_cases :
    (∃ error, run.settle (MemoryOutbox.onLease check delivery now change) record =
        (.error error, run)) ∨
      ∃ entry, run.outbox.active[delivery.event.id]? = some entry ∧ entry.HeldBy delivery now ∧
        run.settle (MemoryOutbox.onLease check delivery now change) record =
          (.ok (), { run with outbox := change entry run.outbox, log := record :: run.log }) := by
  unfold settle
  rcases MemoryOutbox.onLease_cases run.outbox check delivery now change with
    ⟨_, error, called⟩ | ⟨_, entry, found, held, called⟩
  · exact .inl ⟨error, by rw [called]⟩
  · exact .inr ⟨entry, found, held, by rw [called]⟩

theorem ack_cases :
    (∃ error, run.ack delivery = (.error error, run)) ∨
      ∃ entry, run.outbox.active[delivery.event.id]? = some entry ∧
        entry.HeldBy delivery run.clock ∧
        run.ack delivery = (.ok (), { run with
          outbox := { run.outbox with
            active := run.outbox.active.erase delivery.event.id
            completed := run.outbox.completed.insert entry.event.id entry.event }
          log := .completed delivery.event.id :: run.log }) :=
  settle_onLease_cases run _ delivery run.clock _ _

theorem settle_onLease_ok_iff :
    (run.settle (MemoryOutbox.onLease check delivery now change) record).1 = .ok () ↔
      check = .ok () ∧ run.outbox.Holds delivery now := by
  rw [← MemoryOutbox.onLease_ok_iff run.outbox check delivery now change]
  unfold settle
  rcases (MemoryOutbox.onLease check delivery now change).call run.outbox with ⟨result, outbox⟩
  cases result with
  | error | ok => simp

theorem ack_ok_iff :
    (run.ack delivery).1 = .ok () ↔ run.outbox.Holds delivery run.clock :=
  (run.settle_onLease_ok_iff _ delivery run.clock _ _).trans (by simp)

theorem deadLetter_cases (reason : String) (later : Nat) :
    (∃ error, run.deadLetter delivery reason later = (.error error, { run with clock := later })) ∨
      ∃ entry, run.outbox.active[delivery.event.id]? = some entry ∧
        entry.HeldBy delivery run.clock ∧
        run.deadLetter delivery reason later = (.ok (), { run with
          outbox := { run.outbox with
            active := run.outbox.active.erase delivery.event.id
            dead := run.outbox.dead.insert entry.event.id
              { event := entry.event, attempt := entry.attempt, reason, failedAt := later } }
          clock := later
          log := .buried delivery.event.id :: run.log }) := by
  let atLater (outcome : Except Error Unit × OutboxRun) := (outcome.1, { outcome.2 with clock := later })
  rcases settle_onLease_cases run (validateFailureReason reason) delivery run.clock _ _ with
    ⟨error, failed⟩ | ⟨entry, found, held, settled⟩
  · exact .inl ⟨error, congrArg atLater failed⟩
  · exact .inr ⟨entry, found, held, congrArg atLater settled⟩

theorem settle_log_subset (method : Fallible MemoryOutbox Error Unit) :
    run.log ⊆ (run.settle method record).2.log := by
  unfold settle
  rcases method.call run.outbox with ⟨result, outbox⟩
  cases result with
  | error => exact fun _ => id
  | ok => exact fun _ member => mem_cons_of_mem _ member

variable {run} (invariant : Invariant source run)

theorem settle_keeps {α : Type} (part : MemoryOutbox → α) {change}
    (kept : ∀ entry, part (change entry run.outbox) = part run.outbox) :
    part (run.settle (MemoryOutbox.onLease check delivery now change) record).2.outbox =
      part run.outbox := by
  rcases settle_onLease_cases run check delivery now change record with
    ⟨error, failed⟩ | ⟨entry, _, _, settled⟩
  · rw [failed]
  · rw [settled]
    exact kept entry

include invariant

theorem Invariant.settle_onLease (concerned : record.id = delivery.event.id)
    (quiet : tokens (record :: run.log) = tokens run.log)
    (others : ∀ entry id, entry.event.id = delivery.event.id → delivery.event.id ≠ id →
      SameAt run.outbox (change entry run.outbox) id)
    (own : ∀ entry, run.outbox.active[delivery.event.id]? = some entry →
      entry.HeldBy delivery now → Tracks run.log delivery.event.id entry →
      run.outbox.dead[delivery.event.id]? = none →
      run.outbox.completed[delivery.event.id]? = none →
      Consistent (change entry run.outbox) (record :: run.log) delivery.event.id) :
    Invariant source (run.settle (MemoryOutbox.onLease check delivery now change) record).2 := by
  rcases settle_onLease_cases run check delivery now change record with
    ⟨error, failed⟩ | ⟨entry, found, held, settled⟩
  · rw [failed]
    exact invariant
  · rw [settled]
    obtain ⟨tracks, notDead, notCompleted⟩ :=
      (invariant.consistent delivery.event.id).active entry found
    refine invariant.record quiet ?_ ?_
    · rw [concerned]
      exact fun id => others entry id tracks.named
    · rw [concerned]
      exact own entry found held tracks notDead notCompleted

theorem Invariant.ack :
    Invariant source (run.ack delivery).2 := by
  refine invariant.settle_onLease (.ok ()) delivery run.clock _ (.completed _) rfl rfl ?_ ?_
  · intro entry id named other
    simp [SameAt, getElem?_erase_ite, getElem?_insert_ite, named, other]
  · intro entry _ _ tracks notDead _
    refine ⟨?_, ?_, ?_, ?_⟩
    · intro stored found
      simp at found
    · intro letter found
      rw [notDead] at found
      cases found
    · intro gone
      simp [existing_eq_none_iff, tracks.named] at gone
    · intro _ gone
      simp [existing_eq_none_iff, tracks.named] at gone

theorem Invariant.renew
    (lease later : Nat) : Invariant source (run.renew delivery lease later).2 := by
  refine (invariant.settle_onLease _ delivery run.clock _ (.renewed _ _) rfl rfl ?_ ?_).atClock later
  · intro entry id named other
    simp [SameAt, getElem?_insert_ite, other]
  · intro entry _ held tracks notDead notCompleted
    obtain ⟨_, _, until_, leased, _⟩ := held
    refine .of_active Std.ExtTreeMap.getElem?_insert_self
      ⟨tracks.named, tracks.counted, by simp [leaseEnd], ?_⟩ notDead notCompleted
    intro _
    exact tracks.holder (by simp [leased])

theorem Invariant.retry
    (availableAt : Nat) (reason : String) (later : Nat) :
    Invariant source (run.retry delivery availableAt reason later).2 := by
  refine (invariant.settle_onLease _ delivery run.clock _ (.released _) rfl rfl ?_ ?_).atClock later
  · intro entry id named other
    simp [SameAt, getElem?_insert_ite, other]
  · intro entry _ _ tracks notDead notCompleted
    exact .of_active Std.ExtTreeMap.getElem?_insert_self ⟨tracks.named, tracks.counted,
      by simp [leaseEnd], fun leased => absurd rfl leased⟩ notDead notCompleted

theorem Invariant.deadLetter
    (reason : String) (later : Nat) :
    Invariant source (run.deadLetter delivery reason later).2 := by
  refine (invariant.settle_onLease _ delivery run.clock _ (.buried _) rfl rfl ?_ ?_).atClock later
  · intro entry id named other
    simp [SameAt, getElem?_erase_ite, getElem?_insert_ite, named, other]
  · intro entry _ _ tracks _ notCompleted
    refine ⟨?_, ?_, ?_, ?_⟩
    · intro stored found
      simp at found
    · intro letter found
      simp only [tracks.named, getElem?_insert_ite, if_true, some.injEq] at found
      subst letter
      exact ⟨tracks.named, tracks.counted, notCompleted⟩
    · intro gone
      simp [existing_eq_none_iff, tracks.named] at gone
    · intro _ gone
      simp [existing_eq_none_iff, tracks.named] at gone

end

theorem Consistent.appended {outbox : MemoryOutbox} {log : List OutboxRecord}
    (consistent : Consistent outbox log id) (present : outbox.existing id ≠ none) :
    Consistent outbox (.appended id :: log) id := by
  refine ⟨?_, consistent.dead, consistent.unknown, fun _ => present⟩
  intro entry found
  obtain ⟨tracks, apart⟩ := consistent.active entry found
  exact ⟨⟨tracks.named, tracks.counted, tracks.lease, tracks.holder⟩, apart⟩

theorem Invariant.append (invariant : Invariant source run) (event : OutboxEvent) :
    Invariant source (run.append event).2 := by
  unfold OutboxRun.append settle
  rcases append_cases run.outbox event with
    ⟨error, failed⟩ | ⟨called, stored, present, _⟩ | ⟨_, absent, called⟩
  · rw [failed]
    exact invariant
  · rw [called]
    refine invariant.record rfl (fun _ _ => ⟨rfl, rfl, rfl⟩) ?_
    exact (invariant.consistent event.id).appended (by simp [present])
  · rw [called]
    obtain ⟨undelivered, unleased⟩ := (invariant.consistent event.id).unknown absent
    obtain ⟨_, notDead, notCompleted⟩ :=
      (existing_eq_none_iff run.outbox event.id).mp absent
    refine invariant.record rfl ?_ (.of_active Std.ExtTreeMap.getElem?_insert_self
      ⟨rfl, ?_, unleased.symm, fun leased => absurd rfl leased⟩ notDead notCompleted)
    · intro id other
      have different : event.id ≠ id := other
      simp [SameAt, getElem?_insert_ite, different]
    · show 0 = min (deliveries event.id run.log) u32Max
      rw [undelivered, Nat.zero_min]

theorem Invariant.replayDeadLetter (invariant : Invariant source run) (id : Uuid)
    (availableAt : Nat) : Invariant source (run.replayDeadLetter id availableAt).2 := by
  unfold OutboxRun.replayDeadLetter settle
  rcases replayDeadLetter_cases run.outbox id availableAt run.clock with
    ⟨_, failed⟩ | ⟨letter, dead, called⟩
  · rw [failed]
    exact invariant
  · rw [called]
    obtain ⟨named, _, notCompleted⟩ := (invariant.consistent id).dead letter dead
    refine invariant.record rfl ?_ (.of_active Std.ExtTreeMap.getElem?_insert_self
      ⟨named, ?_, ?_, fun leased => absurd rfl leased⟩ ?_ notCompleted)
    · intro other different
      have distinct : id ≠ other := different
      simp [SameAt, getElem?_insert_ite, getElem?_erase_ite, distinct]
    · simp [OutboxEntry.unleased, deliveries, OutboxRecord.id]
    · simp [OutboxEntry.unleased, leaseEnd, OutboxRecord.id]
    · simp [OutboxRecord.id]

section

variable (injective : Function.Injective source)
include injective

theorem Invariant.deliver (invariant : Invariant source run)
    {entry : OutboxEntry} (found : run.outbox.active[id]? = some entry) (worker : String)
    (leaseUntil : Nat) :
    Invariant source { run with
      outbox := { run.outbox with
        active := run.outbox.active.insert id
          (entry.leaseTo worker (source run.drawn) leaseUntil) }
      drawn := run.drawn + 1
      log := .delivered (entry.delivery worker (source run.drawn) leaseUntil) :: run.log } := by
  obtain ⟨tracks, notDead, notCompleted⟩ := (invariant.consistent id).active entry found
  obtain rfl := tracks.named
  refine ⟨?_, ?_, ?_⟩
  · intro other
    by_cases same : entry.event.id = other
    · subst other
      refine .of_active Std.ExtTreeMap.getElem?_insert_self ⟨rfl, ?_, ?_, ?_⟩ notDead notCompleted
      · simp only [deliveries, OutboxEntry.delivery, if_true, OutboxEntry.leaseTo, tracks.counted]
        omega
      · simp only [leaseEnd, OutboxEntry.delivery, if_true, OutboxEntry.leaseTo]
      · intro _
        refine ⟨entry.delivery worker (source run.drawn) leaseUntil, ?_, rfl, rfl, rfl, rfl⟩
        simp [lastDelivery, OutboxEntry.delivery]
    · refine (invariant.consistent other).frame ⟨?_, rfl, rfl⟩ same
      rw [getElem?_insert_ite, if_neg same]
  · intro token member
    rcases mem_cons.mp member with rfl | old
    · exact ⟨run.drawn, Nat.lt_succ_self _, rfl⟩
    · obtain ⟨index, below, same⟩ := invariant.drawn token old
      exact ⟨index, Nat.lt_succ_of_lt below, same⟩
  · refine nodup_cons.mpr ⟨?_, invariant.distinct⟩
    intro old
    obtain ⟨index, below, same⟩ := invariant.drawn _ old
    have equal : run.drawn = index := injective same
    omega

theorem Invariant.issue (invariant : Invariant source run)
    (worker : String) (leaseUntil : Nat) (ids : List Uuid) :
    let outcome := MemoryOutbox.issue source worker leaseUntil ids run.drawn run.outbox
    Invariant source { run with
      outbox := outcome.2
      drawn := run.drawn + outcome.1.length
      log := (outcome.1.map .delivered).reverse ++ run.log } := by
  induction ids generalizing run with
  | nil => exact invariant
  | cons id _ ih =>
    simp only [MemoryOutbox.issue]
    cases found : run.outbox.active[id]? with
    | none => exact ih invariant
    | some =>
      have after := ih (invariant.deliver injective found worker leaseUntil)
      simp only [length_cons, map_cons, reverse_cons, append_assoc]
      rw [← Nat.add_assoc, Nat.add_right_comm]
      exact after

theorem Invariant.acquire (invariant : Invariant source run)
    (worker : String) (limit lease read : Nat) :
    Invariant source (run.acquire source worker limit lease read).2 := by
  unfold OutboxRun.acquire
  rcases acquire_cases run.outbox source run.drawn worker limit lease read with
    ⟨error, _, failed⟩ | ⟨_, called⟩
  · rw [failed]
    exact invariant
  · rw [called]
    exact invariant.issue injective worker (read + lease) _

theorem Step.invariant {before after : OutboxRun}
    (step : Step source before after) (initial : Invariant source before) :
    Invariant source after := by
  cases step with
  | tick later => exact initial.atClock later
  | append event => exact initial.append event
  | acquire worker limit lease read => exact initial.acquire injective worker limit lease read
  | ack delivery => exact initial.ack delivery
  | renew delivery lease later => exact initial.renew delivery lease later
  | retry delivery availableAt reason later =>
    exact initial.retry delivery availableAt reason later
  | deadLetter delivery reason later => exact initial.deadLetter delivery reason later
  | replayDeadLetter id availableAt => exact initial.replayDeadLetter id availableAt

theorem Reachable.invariant {before after : OutboxRun}
    (run : Reachable source before after) (initial : Invariant source before) :
    Invariant source after := by
  induction run with
  | refl => exact initial
  | tail _ step ih => exact step.invariant injective ih

end

end Invariant

section Fencing

variable {source : Nat → Uuid} {run : OutboxRun}
variable {delivery : OutboxDelivery} {id : Uuid}

/-- The delivery carries the token issued last for its event, the lease has not
been given up and has not run out. -/
def Current (run : OutboxRun) (delivery : OutboxDelivery) : Prop :=
  ∃ last leaseUntil, lastDelivery delivery.event.id run.log = some last ∧
    last.worker = delivery.worker ∧ last.token = delivery.token ∧
    leaseEnd delivery.event.id run.log = some leaseUntil ∧ run.clock < leaseUntil

theorem Invariant.current_of_holds (invariant : Invariant source run)
    (holds : run.outbox.Holds delivery run.clock) : run.Current delivery := by
  obtain ⟨entry, found, worker, token, leaseUntil, leased, unexpired⟩ := holds
  obtain ⟨tracks, _, _⟩ := (invariant.consistent delivery.event.id).active entry found
  obtain ⟨last, recorded, sameWorker, sameToken, _, _⟩ := tracks.holder (by simp [leased])
  refine ⟨last, leaseUntil, recorded, ?_, ?_, ?_, unexpired⟩
  · exact some.inj (sameWorker.symm.trans worker)
  · exact some.inj (sameToken.symm.trans token)
  · rw [← tracks.lease, leased]

theorem settle_ok_holds {check : Except Error Unit} {now : Nat}
    {change : OutboxEntry → MemoryOutbox → MemoryOutbox} {record : OutboxRecord}
    (succeeded : (run.settle (MemoryOutbox.onLease check delivery now change) record).1 = .ok ()) :
    run.outbox.Holds delivery now :=
  ((run.settle_onLease_ok_iff check delivery now change record).mp succeeded).2

theorem delivered_unique {log : List OutboxRecord} (distinct : (tokens log).Nodup)
    {first second : OutboxDelivery} (one : .delivered first ∈ log)
    (two : .delivered second ∈ log) (same : first.token = second.token) : first = second := by
  have token_mem {delivery : OutboxDelivery} {log : List OutboxRecord}
      (member : .delivered delivery ∈ log) : delivery.token ∈ tokens log :=
    mem_filterMap.mpr ⟨_, member, rfl⟩
  induction log with
  | nil => cases one
  | cons record _ ih =>
    rcases mem_cons.mp one with rfl | oldOne
    · rcases mem_cons.mp two with equal | oldTwo
      · exact (OutboxRecord.delivered.inj equal).symm
      · exact absurd (same ▸ token_mem oldTwo) (nodup_cons.mp distinct).1
    · rcases mem_cons.mp two with rfl | oldTwo
      · exact absurd (same.symm ▸ token_mem oldOne) (nodup_cons.mp distinct).1
      · refine ih ?_ oldOne oldTwo
        cases record with
        | delivered => exact (nodup_cons.mp distinct).2
        | _ => exact distinct

theorem Invariant.holder_unique (invariant : Invariant source run) {first second : OutboxDelivery}
    (one : .delivered first ∈ run.log) (two : .delivered second ∈ run.log)
    (same : first.event.id = second.event.id) {now : Nat}
    (holdsFirst : run.outbox.Holds first now) (holdsSecond : run.outbox.Holds second now) :
    first = second := by
  obtain ⟨entry, found, _, token, _⟩ := holdsFirst
  obtain ⟨other, present, _, otherToken, _⟩ := holdsSecond
  rw [same, present, some.injEq] at found
  subst other
  exact delivered_unique invariant.distinct one two
    (some.inj (token.symm.trans otherToken))

theorem renew_frame (run : OutboxRun) (delivery : OutboxDelivery) (lease later : Nat) :
    (run.renew delivery lease later).2.outbox.completed = run.outbox.completed ∧
      (run.renew delivery lease later).2.outbox.dead = run.outbox.dead :=
  ⟨settle_keeps _ delivery run.clock _ (·.completed) (fun _ => rfl),
    settle_keeps _ delivery run.clock _ (·.dead) (fun _ => rfl)⟩

theorem retry_frame (run : OutboxRun) (delivery : OutboxDelivery) (availableAt : Nat)
    (reason : String) (later : Nat) :
    (run.retry delivery availableAt reason later).2.outbox.completed = run.outbox.completed ∧
      (run.retry delivery availableAt reason later).2.outbox.dead = run.outbox.dead :=
  ⟨settle_keeps _ delivery run.clock _ (·.completed) (fun _ => rfl),
    settle_keeps _ delivery run.clock _ (·.dead) (fun _ => rfl)⟩

theorem acquire_log (run : OutboxRun) (source : Nat → Uuid) (worker : String)
    (limit lease read : Nat) :
    run.log ⊆ (run.acquire source worker limit lease read).2.log ∧
      ∀ acquired, (run.acquire source worker limit lease read).1 = .ok acquired →
        ∀ delivery ∈ acquired,
          .delivered delivery ∈ (run.acquire source worker limit lease read).2.log := by
  unfold OutboxRun.acquire
  rcases (MemoryOutbox.acquire source run.drawn worker limit lease read).call run.outbox with
    ⟨result, outbox⟩
  cases result with
  | error => exact ⟨fun _ => id, nofun⟩
  | ok =>
    refine ⟨fun _ member => mem_append_right _ member, ?_⟩
    intro acquired same delivery member
    obtain rfl := Except.ok.inj same
    exact mem_append_left _ (mem_reverse.mpr (mem_map_of_mem member))

theorem append_frame (run : OutboxRun) (event : OutboxEvent) :
    (run.append event).2.outbox.completed = run.outbox.completed ∧
      (run.append event).2.outbox.dead = run.outbox.dead := by
  unfold OutboxRun.append settle
  rcases append_cases run.outbox event with
    ⟨error, failed⟩ | ⟨called, _⟩ | ⟨_, _, called⟩
  · rw [failed]
    exact ⟨rfl, rfl⟩
  all_goals
    rw [called]
    exact ⟨rfl, rfl⟩

theorem acquire_frame (run : OutboxRun) (source : Nat → Uuid) (worker : String)
    (limit lease read : Nat) :
    (run.acquire source worker limit lease read).2.outbox.completed = run.outbox.completed ∧
      (run.acquire source worker limit lease read).2.outbox.dead = run.outbox.dead := by
  unfold OutboxRun.acquire
  rcases acquire_cases run.outbox source run.drawn worker limit lease read with
    ⟨error, _, failed⟩ | ⟨_, called⟩
  · rw [failed]
    exact ⟨rfl, rfl⟩
  · rw [called]
    exact MemoryOutbox.issue_frame source worker (read + lease) _ run.drawn run.outbox

theorem replayDeadLetter_frame (run : OutboxRun) (id : Uuid) (availableAt : Nat) :
    (run.replayDeadLetter id availableAt).2.outbox.completed = run.outbox.completed ∧
      ∀ (other : Uuid) (letter : DeadLetter),
        (run.replayDeadLetter id availableAt).2.outbox.dead[other]? = some letter →
        run.outbox.dead[other]? = some letter := by
  unfold OutboxRun.replayDeadLetter settle
  rcases replayDeadLetter_cases run.outbox id availableAt run.clock with
    ⟨_, failed⟩ | ⟨replayed, _, called⟩
  · rw [failed]
    exact ⟨rfl, fun _ _ found => found⟩
  · rw [called]
    refine ⟨rfl, fun other letter found => ?_⟩
    simp only [getElem?_erase_ite] at found
    split at found
    · cases found
    · exact found

theorem Step.completed_mono {after : OutboxRun} (step : Step source run after)
    (known : id ∈ run.outbox.completed) : id ∈ after.outbox.completed := by
  cases step with
  | tick => exact known
  | append event => exact (run.append_frame event).1 ▸ known
  | acquire worker limit lease read =>
    exact (run.acquire_frame source worker limit lease read).1 ▸ known
  | ack delivery =>
    rcases run.ack_cases delivery with ⟨error, failed⟩ | ⟨entry, _, _, settled⟩
    · rw [failed]
      exact known
    · rw [settled]
      exact Std.ExtTreeMap.mem_insert.mpr (.inr known)
  | renew delivery lease later => exact (run.renew_frame delivery lease later).1 ▸ known
  | retry delivery availableAt reason later =>
    exact (run.retry_frame delivery availableAt reason later).1 ▸ known
  | deadLetter delivery reason later =>
    have kept : (run.deadLetter delivery reason later).2.outbox.completed = _ :=
      settle_keeps _ delivery run.clock _ (·.completed) (fun _ => rfl)
    exact kept ▸ known
  | replayDeadLetter id availableAt =>
    exact (run.replayDeadLetter_frame id availableAt).1 ▸ known

theorem Reachable.completed_mono {after : OutboxRun} (reached : Reachable source run after)
    (known : id ∈ run.outbox.completed) : id ∈ after.outbox.completed := by
  induction reached with
  | refl => exact known
  | tail _ step ih => exact step.completed_mono ih

/-- In every run an appended event is in exactly one place, a completed one is not delivered again,
at most one delivery of an event is current and only that one can change it, and the attempt number
counts deliveries until it stops at the largest 32-bit value. -/
theorem outbox_fenced (injective : Function.Injective source) {clock : Nat}
    (reached : Reachable source (start clock) run) :
    (∀ id, .appended id ∈ run.log →
      (id ∈ run.outbox.active ∧ id ∉ run.outbox.dead ∧ id ∉ run.outbox.completed) ∨
        (id ∉ run.outbox.active ∧ id ∈ run.outbox.dead ∧ id ∉ run.outbox.completed) ∨
        (id ∉ run.outbox.active ∧ id ∉ run.outbox.dead ∧ id ∈ run.outbox.completed)) ∧
      (∀ id ∈ run.outbox.completed, ∀ later, Reachable source run later →
        id ∈ later.outbox.completed ∧
        ∀ worker limit lease read acquired,
          (later.acquire source worker limit lease read).1 = .ok acquired →
          ∀ delivery ∈ acquired, delivery.event.id ≠ id) ∧
      (∀ first second, .delivered first ∈ run.log → .delivered second ∈ run.log →
        first.event.id = second.event.id → run.outbox.Holds first run.clock →
        run.outbox.Holds second run.clock → first = second) ∧
      (∀ delivery, (run.ack delivery).1 = .ok () ∨
        (∃ lease later, (run.renew delivery lease later).1 = .ok ()) ∨
        (∃ availableAt reason later, (run.retry delivery availableAt reason later).1 = .ok ()) ∨
        (∃ reason later, (run.deadLetter delivery reason later).1 = .ok ()) →
        run.Current delivery) ∧
      (∀ id entry, run.outbox.active[id]? = some entry →
        entry.attempt = min (deliveries id run.log) u32Max) ∧
      ∀ id letter, run.outbox.dead[id]? = some letter →
        letter.attempt = min (deliveries id run.log) u32Max := by
  have invariant := reached.invariant injective (invariant_start source clock)
  refine ⟨?_, ?_, ?_, ?_, ?_, ?_⟩
  · intro id appended
    have consistent := invariant.consistent id
    have known := consistent.known appended
    rw [ne_eq, existing_eq_none_iff] at known
    simp only [Std.ExtTreeMap.mem_iff_isSome_getElem?]
    cases active : run.outbox.active[id]? with
    | some entry =>
      obtain ⟨_, notDead, notCompleted⟩ := consistent.active entry active
      simp [notDead, notCompleted]
    | none =>
      cases dead : run.outbox.dead[id]? with
      | some letter =>
        obtain ⟨_, _, notCompleted⟩ := consistent.dead letter dead
        simp [notCompleted]
      | none =>
        cases completed : run.outbox.completed[id]? with
        | some => simp
        | none => exact absurd ⟨active, dead, completed⟩ known
  · intro id known later continued
    have stays := continued.completed_mono known
    refine ⟨stays, ?_⟩
    rintro worker limit lease read acquired success delivery member rfl
    have laterInvariant := continued.invariant injective invariant
    unfold OutboxRun.acquire at success
    rcases acquire_cases later.outbox source later.drawn worker limit lease read with
      ⟨error, _, failed⟩ | ⟨_, called⟩
    · rw [failed] at success
      cases success
    rw [called] at success
    obtain rfl := Except.ok.inj success
    obtain ⟨id, _, entry, found, same⟩ := MemoryOutbox.issue_event member
    obtain ⟨tracks, _, notCompleted⟩ := (laterInvariant.consistent id).active entry found
    rw [same, tracks.named, Std.ExtTreeMap.mem_iff_isSome_getElem?, isSome_iff_exists] at stays
    obtain ⟨event, present⟩ := stays
    exact absurd (notCompleted.symm.trans present) (by simp)
  · intro first second one two same holdsFirst holdsSecond
    exact invariant.holder_unique one two same holdsFirst holdsSecond
  · rintro delivery (acked | ⟨_, _, renewed⟩ | ⟨_, _, _, retried⟩ | ⟨_, _, buried⟩)
    · exact invariant.current_of_holds (settle_ok_holds acked)
    · exact invariant.current_of_holds (settle_ok_holds renewed)
    · exact invariant.current_of_holds (settle_ok_holds retried)
    · exact invariant.current_of_holds (settle_ok_holds buried)
  · intro id entry found
    exact ((invariant.consistent id).active entry found).1.counted
  · intro id letter found
    exact ((invariant.consistent id).dead letter found).2.1

end Fencing

section Exhausted

variable {entry : OutboxEntry} {run : OutboxRun}

def mailEvent : OutboxEvent where
  id := 1
  topic := "mail"
  key := ""
  traceId := ""
  payload := []
  headers := []
  createdAt := 0
  availableAt := 0

def delivered : OutboxRun :=
  (((start 0).append mailEvent).2.acquire id "worker" 1 10 0).2

theorem delivered_reachable : Reachable id (start 0) delivered :=
  (Relation.ReflTransGen.single (Step.append mailEvent)).tail
    (Step.acquire "worker" 1 10 0 (Nat.zero_le _))

theorem delivered_fenced : delivered.outbox.active[1]?.map (·.attempt) = some 1 ∧
    ∀ entry, delivered.outbox.active[1]? = some entry →
      entry.attempt = min (deliveries 1 delivered.log) u32Max :=
  ⟨by decide +kernel,
    (outbox_fenced Function.injective_id delivered_reachable).2.2.2.2.1 1⟩

def Only (outbox : MemoryOutbox) (entry : OutboxEntry) : Prop :=
  ∀ other : Uuid, outbox.active[other]? = if entry.event.id = other then some entry else none

theorem Only.candidates {outbox : MemoryOutbox} {now : Nat} (only : Only outbox entry)
    (eligible : entry.eligible now) : outbox.candidates now = [entry.event.id] := by
  refine perm_singleton.mp ((perm_ext_iff_of_nodup (outbox.candidates_nodup now)
    (nodup_singleton _)).mpr ?_)
  intro 
  rw [MemoryOutbox.mem_candidates, only, mem_singleton]
  constructor
  · rintro ⟨stored, found, _⟩
    by_contra other
    rw [if_neg (Ne.symm other)] at found
    cases found
  · rintro rfl
    exact ⟨entry, if_pos rfl, eligible⟩

theorem Only.insert {outbox : MemoryOutbox} {next : OutboxEntry} (only : Only outbox entry)
    (same : next.event.id = entry.event.id) :
    Only { outbox with active := outbox.active.insert entry.event.id next } next := by
  intro other
  simp only [getElem?_insert_ite, same]
  split
  · rfl
  · rename_i different
    exact (only other).trans (if_neg different)

theorem acquire_only {source : Nat → Uuid} (only : Only run.outbox entry) {read : Nat}
    (eligible : entry.eligible read) {worker : String} {limit lease : Nat}
    (valid : validateLease worker limit lease = .ok ()) :
    run.acquire source worker limit lease read =
      (.ok [entry.delivery worker (source run.drawn) (read + lease)], { run with
        outbox := { run.outbox with
          active := run.outbox.active.insert entry.event.id
            (entry.leaseTo worker (source run.drawn) (read + lease)) }
        drawn := run.drawn + 1
        log := .delivered (entry.delivery worker (source run.drawn) (read + lease)) ::
          run.log }) := by
  have found : run.outbox.active[entry.event.id]? = some entry :=
    (only entry.event.id).trans (if_pos rfl)
  have positive : 0 < limit := ((validateLease_ok_iff worker limit lease).mp valid).2.2.1
  have taken : [entry.event.id].take limit = [entry.event.id] :=
    take_of_length_le positive
  unfold OutboxRun.acquire
  rcases acquire_cases run.outbox source run.drawn worker limit lease read with
    ⟨error, refused, _⟩ | ⟨_, called⟩
  · rw [valid] at refused
    cases refused
  · rw [called, only.candidates eligible, taken]
    simp [MemoryOutbox.issue, found]

def Alone (run : OutboxRun) : Prop :=
  ∃ entry, entry.event = mailEvent ∧ Only run.outbox entry

theorem mail_appended : (start 0).append mailEvent = (.ok (), {
      outbox := { MemoryOutbox.new with
        active := MemoryOutbox.new.active.insert 1 (.unleased mailEvent) }
      clock := 0, drawn := 0, log := [.appended 1] }) ∧
    Only { MemoryOutbox.new with
      active := MemoryOutbox.new.active.insert 1 (.unleased mailEvent) } (.unleased mailEvent) := by
  have valid : mailEvent.validate = .ok () := by decide
  constructor
  · simp [OutboxRun.append, settle, MemoryOutbox.append, call_bind, valid, start,
      MemoryOutbox.existing, MemoryOutbox.new]
    exact ⟨rfl, rfl⟩
  · intro other
    simp only [getElem?_insert_ite]
    split
    · rename_i same
      exact (if_pos same).symm
    · rename_i different
      exact (if_neg different).symm

theorem eligible_expired (event : entry.event = mailEvent) (clock : Nat) :
    entry.eligible (max clock (entry.leaseUntil.getD 0)) := by
  simp only [OutboxEntry.eligible, event, mailEvent]
  cases leased : entry.leaseUntil with
  | none => rfl
  | some => simp

theorem acquire_alone (alone : Alone run) :
    ∃ after, Reachable id run after ∧ Alone after ∧
      deliveries 1 after.log = deliveries 1 run.log + 1 := by
  obtain ⟨entry, event, only⟩ := alone
  let later := max run.clock (entry.leaseUntil.getD 0)
  let expired : OutboxRun := { run with clock := later }
  have expiredOnly : Only expired.outbox entry := only
  have valid : validateLease "worker" 1 1 = .ok () := by decide
  have acquired := @acquire_only entry expired id expiredOnly later
    (eligible_expired event run.clock) "worker" 1 1 valid
  refine ⟨(expired.acquire id "worker" 1 1 later).2,
    (Relation.ReflTransGen.single (Step.tick later (le_max_left _ _))).tail
      (Step.acquire "worker" 1 1 later le_rfl), ?_, ?_⟩
  · rw [acquired]
    exact ⟨entry.leaseTo "worker" expired.drawn (later + 1), event, only.insert rfl⟩
  · rw [acquired]
    simp only [OutboxEntry.delivery, event]
    rfl

theorem acquire_repeatedly (count : Nat) :
    ∃ run, Reachable id (start 0) run ∧ Alone run ∧ deliveries 1 run.log = count := by
  induction count with
  | zero =>
    refine ⟨((start 0).append mailEvent).2, Relation.ReflTransGen.single (Step.append mailEvent),
      ?_, ?_⟩
    · rw [mail_appended.1]
      exact ⟨_, rfl, mail_appended.2⟩
    · rw [mail_appended.1]
      rfl
  | succ _ ih =>
    obtain ⟨run, reached, alone, counted⟩ := ih
    obtain ⟨after, continued, stillAlone, more⟩ := acquire_alone alone
    exact ⟨after, reached.trans continued, stillAlone, by rw [more, counted]⟩

theorem attempt_saturates : ∃ run, Reachable id (start 0) run ∧
    ∃ entry, run.outbox.active[1]? = some entry ∧ entry.attempt ≠ deliveries 1 run.log := by
  obtain ⟨run, reached, ⟨entry, event, only⟩, counted⟩ := acquire_repeatedly (u32Max + 1)
  have found : run.outbox.active[1]? = some entry :=
    (only 1).trans (if_pos (congrArg OutboxEvent.id event))
  have invariant := reached.invariant Function.injective_id (invariant_start id 0)
  have attempt := ((invariant.consistent 1).active entry found).1.counted
  refine ⟨run, reached, entry, found, ?_⟩
  rw [counted]
  omega

end Exhausted

end OutboxRun

end Elura
