import Elura.Basis.OrderedMap
import Elura.Core.Values

/-!
The transactional outbox of `elura-core` and its in-memory store. A worker holds an event by the
token of its last acquisition. A value of the clock is a parameter wherever the source reads it.
-/

namespace Elura

open Fallible

open Std (ExtTreeMap)

structure OutboxEvent where
  id : Uuid
  topic : String
  key : String
  traceId : String
  payload : List UInt8
  headers : List (String × String)
  createdAt : Nat
  availableAt : Nat
  deriving DecidableEq, Repr

def OutboxEvent.validate (event : OutboxEvent) : Except Error Unit :=
  if event.id = 0 ∨ isBlank event.topic ∨ event.availableAt < event.createdAt ∨
      255 < event.topic.utf8ByteSize ∨ 512 < event.key.utf8ByteSize ∨
      128 < event.traceId.utf8ByteSize ∨ 1024 * 1024 < event.payload.length ∨
      64 < event.headers.length ∨
      (∃ header ∈ event.headers, header.1.isEmpty ∨ 128 < header.1.utf8ByteSize ∨
        1024 < header.2.utf8ByteSize) then
    .error (.invalidConfig "invalid outbox event")
  else .ok ()

def OutboxEvent.sameIdentity (event other : OutboxEvent) : Bool :=
  event.id == other.id && event.topic == other.topic && event.key == other.key &&
    event.traceId == other.traceId && event.payload == other.payload &&
    event.headers == other.headers

theorem OutboxEvent.sameIdentity_iff (event other : OutboxEvent) :
    event.sameIdentity other ↔ event.id = other.id ∧ event.topic = other.topic ∧
      event.key = other.key ∧ event.traceId = other.traceId ∧ event.payload = other.payload ∧
      event.headers = other.headers := by
  simp [OutboxEvent.sameIdentity, and_assoc]

theorem OutboxEvent.sameIdentity_refl (event : OutboxEvent) : event.sameIdentity event := by
  rw [OutboxEvent.sameIdentity_iff]
  exact ⟨rfl, rfl, rfl, rfl, rfl, rfl⟩

structure OutboxDelivery where
  event : OutboxEvent
  attempt : Nat
  worker : String
  token : Uuid
  leaseUntil : Nat
  deriving DecidableEq, Repr

structure DeadLetter where
  event : OutboxEvent
  attempt : Nat
  reason : String
  failedAt : Nat
  deriving DecidableEq, Repr

def validateFailureReason (reason : String) : Except Error Unit :=
  if 4096 < reason.utf8ByteSize then
    .error (.invalidConfig "outbox failure reason exceeds limit")
  else .ok ()

def validateLease (worker : String) (limit lease : Nat) : Except Error Unit :=
  if isBlank worker ∨ 128 < worker.utf8ByteSize ∨ limit = 0 ∨ 4096 < limit ∨ lease = 0 then
    .error (.invalidConfig "invalid outbox lease")
  else .ok ()

theorem validateFailureReason_ok_iff (reason : String) :
    validateFailureReason reason = .ok () ↔ reason.utf8ByteSize ≤ 4096 := by
  simp only [validateFailureReason]
  split
  · rename_i long
    simp only [reduceCtorEq, false_iff]
    omega
  · rename_i short
    simp only [true_iff]
    omega

theorem validateLease_ok_iff (worker : String) (limit lease : Nat) :
    validateLease worker limit lease = .ok () ↔
      isBlank worker = false ∧ worker.utf8ByteSize ≤ 128 ∧ 0 < limit ∧ limit ≤ 4096 ∧
        0 < lease := by
  simp only [validateLease]
  split
  · rename_i invalid
    simp only [reduceCtorEq, false_iff, not_and]
    intro named short some_ bounded positive
    rcases invalid with blank | long | none_ | many | zero
    · rw [named] at blank
      cases blank
    all_goals omega
  · rename_i valid
    push Not at valid
    simp only [true_iff]
    exact ⟨by simpa using valid.1, valid.2.1, by omega, valid.2.2.2.1, by omega⟩

structure OutboxEntry where
  event : OutboxEvent
  attempt : Nat
  worker : Option String
  token : Option Uuid
  leaseUntil : Option Nat
  lastError : String
  deriving DecidableEq, Repr

structure MemoryOutbox where
  active : ExtTreeMap Uuid OutboxEntry
  dead : ExtTreeMap Uuid DeadLetter
  completed : ExtTreeMap Uuid OutboxEvent

def OutboxEntry.HeldBy (entry : OutboxEntry) (delivery : OutboxDelivery) (now : Nat) : Prop :=
  entry.worker = some delivery.worker ∧ entry.token = some delivery.token ∧
    ∃ until_, entry.leaseUntil = some until_ ∧ now < until_

def OutboxEntry.unleased (event : OutboxEvent) : OutboxEntry where
  event
  attempt := 0
  worker := none
  token := none
  leaseUntil := none
  lastError := ""

def OutboxEntry.eligible (entry : OutboxEntry) (now : Nat) : Bool :=
  decide (entry.event.availableAt ≤ now) && entry.leaseUntil.all (· ≤ now)

def OutboxEntry.leaseTo (entry : OutboxEntry) (worker : String) (token : Uuid) (leaseUntil : Nat) :
    OutboxEntry :=
  { entry with
    attempt := min (entry.attempt + 1) u32Max
    worker := some worker
    token := some token
    leaseUntil := some leaseUntil }

def OutboxEntry.delivery (entry : OutboxEntry) (worker : String) (token : Uuid)
    (leaseUntil : Nat) : OutboxDelivery where
  event := entry.event
  attempt := (entry.leaseTo worker token leaseUntil).attempt
  worker
  token
  leaseUntil

namespace MemoryOutbox

variable (outbox : MemoryOutbox)

def new : MemoryOutbox where
  active := ∅
  dead := ∅
  completed := ∅

def leased (delivery : OutboxDelivery) (now : Nat) : Fallible MemoryOutbox Error OutboxEntry := do
  let outbox ← get
  match outbox.active[delivery.event.id]? with
  | none => throw .outboxNotFound
  | some entry =>
    if entry.worker ≠ some delivery.worker ∨ entry.token ≠ some delivery.token ∨
        entry.leaseUntil.all (· ≤ now) then
      throw .outboxLeaseLost
    else return entry

def existing (outbox : MemoryOutbox) (id : Uuid) : Option OutboxEvent :=
  (outbox.active[id]?.map (·.event)).or
    ((outbox.dead[id]?.map (·.event)).or outbox.completed[id]?)

def append (event : OutboxEvent) : Fallible MemoryOutbox Error Unit := do
  liftM event.validate
  let outbox ← get
  match outbox.existing event.id with
  | some stored => if stored.sameIdentity event then return () else throw .duplicateEvent
  | none => set { outbox with active := outbox.active.insert event.id (.unleased event) }

def candidates (outbox : MemoryOutbox) (now : Nat) : List Uuid :=
  ((outbox.active.toList.filter (fun item => item.2.eligible now)).insertionSort
    (fun left right => left.2.event.createdAt < right.2.event.createdAt ∨
      left.2.event.createdAt = right.2.event.createdAt ∧ left.1 ≤ right.1)).map (·.1)

/-- The loop of `acquire`. The tokens of `Uuid::new_v4` come from a source that
is read on from position `drawn`. -/
def issue (source : Nat → Uuid) (worker : String) (leaseUntil : Nat) :
    List Uuid → Nat → MemoryOutbox → List OutboxDelivery × MemoryOutbox
  | [], _, outbox => ([], outbox)
  | id :: rest, drawn, outbox =>
    match outbox.active[id]? with
    | none => issue source worker leaseUntil rest drawn outbox
    | some entry =>
      let (deliveries, after) := issue source worker leaseUntil rest (drawn + 1)
        { outbox with
          active := outbox.active.insert id (entry.leaseTo worker (source drawn) leaseUntil) }
      (entry.delivery worker (source drawn) leaseUntil :: deliveries, after)

def acquire (source : Nat → Uuid) (drawn : Nat) (worker : String) (limit lease now : Nat) :
    Fallible MemoryOutbox Error (List OutboxDelivery) := do
  liftM (validateLease worker limit lease)
  let outbox ← get
  let ids := (outbox.candidates now).take limit
  let (deliveries, after) := issue source worker (now + lease) ids drawn outbox
  set after
  return deliveries

def onLease (check : Except Error Unit) (delivery : OutboxDelivery) (now : Nat)
    (change : OutboxEntry → MemoryOutbox → MemoryOutbox) : Fallible MemoryOutbox Error Unit := do
  liftM check
  let entry ← leased delivery now
  modify (change entry)

def ack (delivery : OutboxDelivery) (now : Nat) : Fallible MemoryOutbox Error Unit :=
  onLease (.ok ()) delivery now (fun entry outbox => { outbox with
    active := outbox.active.erase delivery.event.id
    completed := outbox.completed.insert entry.event.id entry.event })

/-- The clock is read once for the check and once more for the new lease. -/
def renew (delivery : OutboxDelivery) (lease now later : Nat) :
    Fallible MemoryOutbox Error Unit :=
  onLease (if lease = 0 then .error (.invalidConfig "invalid outbox lease") else .ok ())
    delivery now (fun entry outbox => { outbox with
      active := outbox.active.insert delivery.event.id
        { entry with leaseUntil := some (later + lease) } })

def retry (delivery : OutboxDelivery) (availableAt : Nat) (reason : String) (now later : Nat) :
    Fallible MemoryOutbox Error Unit :=
  onLease (validateFailureReason reason) delivery now (fun entry outbox => { outbox with
    active := outbox.active.insert delivery.event.id
      { event := { entry.event with availableAt := max availableAt later }
        attempt := entry.attempt
        worker := none
        token := none
        leaseUntil := none
        lastError := reason } })

def deadLetter (delivery : OutboxDelivery) (reason : String) (now later : Nat) :
    Fallible MemoryOutbox Error Unit :=
  onLease (validateFailureReason reason) delivery now (fun entry outbox => { outbox with
    active := outbox.active.erase delivery.event.id
    dead := outbox.dead.insert entry.event.id
      { event := entry.event, attempt := entry.attempt, reason, failedAt := later } })

def replayDeadLetter (id : Uuid) (availableAt now : Nat) : Fallible MemoryOutbox Error Unit := do
  let outbox ← get
  match outbox.dead[id]? with
  | none => throw .outboxNotFound
  | some letter =>
    set { outbox with
      dead := outbox.dead.erase id
      active := outbox.active.insert id
        (.unleased { letter.event with availableAt := max availableAt now }) }

def Holds (outbox : MemoryOutbox) (delivery : OutboxDelivery) (now : Nat) : Prop :=
  ∃ entry, outbox.active[delivery.event.id]? = some entry ∧ entry.HeldBy delivery now

theorem heldBy_iff (entry : OutboxEntry) (delivery : OutboxDelivery) (now : Nat) :
    entry.HeldBy delivery now ↔ ¬(entry.worker ≠ some delivery.worker ∨
      entry.token ≠ some delivery.token ∨ entry.leaseUntil.all (· ≤ now)) := by
  unfold OutboxEntry.HeldBy
  push Not
  cases entry.leaseUntil with
  | none | some => simp

theorem leased_cases (delivery : OutboxDelivery) (now : Nat) :
    (∃ entry, outbox.active[delivery.event.id]? = some entry ∧ entry.HeldBy delivery now ∧
        (leased delivery now).call outbox = (.ok entry, outbox)) ∨
      (¬outbox.Holds delivery now ∧
        ∃ error, (leased delivery now).call outbox = (.error error, outbox)) := by
  unfold Holds
  simp only [leased, call_bind, call_get]
  cases outbox.active[delivery.event.id]? with
  | none => exact .inr ⟨by simp, .outboxNotFound, rfl⟩
  | some entry =>
    simp only [call_ite]
    by_cases lost : entry.worker ≠ some delivery.worker ∨
        entry.token ≠ some delivery.token ∨ entry.leaseUntil.all (· ≤ now)
    · refine .inr ⟨?_, .outboxLeaseLost, if_pos lost⟩
      rintro ⟨_, ⟨⟩, held⟩
      exact (heldBy_iff entry delivery now).mp held lost
    · exact .inl ⟨entry, rfl, (heldBy_iff entry delivery now).mpr lost, if_neg lost⟩

/-- A method on a delivery fails and changes nothing, or the delivery holds the
event and the change is made. -/
theorem onLease_cases (check : Except Error Unit)
    (delivery : OutboxDelivery) (now : Nat) (change : OutboxEntry → MemoryOutbox → MemoryOutbox) :
    (¬(check = .ok () ∧ outbox.Holds delivery now) ∧
        ∃ error, (onLease check delivery now change).call outbox = (.error error, outbox)) ∨
      (check = .ok () ∧ ∃ entry, outbox.active[delivery.event.id]? = some entry ∧
        entry.HeldBy delivery now ∧
        (onLease check delivery now change).call outbox = (.ok (), change entry outbox)) := by
  simp only [onLease, call_bind, call_liftExcept]
  cases check with
  | error error => exact .inl ⟨by simp, error, rfl⟩
  | ok =>
    rcases leased_cases outbox delivery now with ⟨entry, found, held, called⟩ | ⟨lost, error, called⟩
    · exact .inr ⟨rfl, entry, found, held, by simp only [called, call_modify]⟩
    · exact .inl ⟨fun both => lost both.2, error, by simp only [called]⟩

theorem onLease_ok_iff (check : Except Error Unit)
    (delivery : OutboxDelivery) (now : Nat) (change : OutboxEntry → MemoryOutbox → MemoryOutbox) :
    ((onLease check delivery now change).call outbox).1 = .ok () ↔
      check = .ok () ∧ outbox.Holds delivery now := by
  rcases onLease_cases outbox check delivery now change with
    ⟨refused, error, called⟩ | ⟨passed, entry, found, held, called⟩
  · rw [called]
    exact iff_of_false (by simp) refused
  · rw [called]
    exact iff_of_true rfl ⟨passed, entry, found, held⟩

theorem mem_candidates (now : Nat) (id : Uuid) :
    id ∈ outbox.candidates now ↔
      ∃ entry, outbox.active[id]? = some entry ∧ entry.eligible now := by
  simp [candidates]

theorem candidates_nodup (now : Nat) :
    (outbox.candidates now).Nodup := by
  unfold candidates
  rw [((List.perm_insertionSort _ _).map _).nodup_iff]
  have distinct : (outbox.active.toList.map (·.1)).Nodup := by
    rw [ExtTreeMap.map_fst_toList_eq_keys]
    exact ExtTreeMap.nodup_keys
  exact distinct.sublist (List.filter_sublist.map _)

theorem acquire_cases (source : Nat → Uuid) (drawn : Nat)
    (worker : String) (limit lease now : Nat) :
    (∃ error, validateLease worker limit lease = .error error ∧
        (acquire source drawn worker limit lease now).call outbox = (.error error, outbox)) ∨
      (validateLease worker limit lease = .ok () ∧
        (acquire source drawn worker limit lease now).call outbox =
          (.ok (issue source worker (now + lease) ((outbox.candidates now).take limit)
              drawn outbox).1,
            (issue source worker (now + lease) ((outbox.candidates now).take limit)
              drawn outbox).2)) := by
  simp only [acquire]
  cases validateLease worker limit lease with
  | error error => exact .inl ⟨error, rfl, rfl⟩
  | ok => exact .inr ⟨rfl, rfl⟩

theorem issue_frame (source : Nat → Uuid) (worker : String) (leaseUntil : Nat)
    (ids : List Uuid) (drawn : Nat) (outbox : MemoryOutbox) :
    (issue source worker leaseUntil ids drawn outbox).2.completed = outbox.completed ∧
      (issue source worker leaseUntil ids drawn outbox).2.dead = outbox.dead := by
  induction ids generalizing drawn outbox with
  | nil => exact ⟨rfl, rfl⟩
  | cons id _ ih =>
    simp only [issue]
    cases outbox.active[id]? with
    | none => exact ih drawn outbox
    | some => exact ih (drawn + 1) _

theorem issue_event {source : Nat → Uuid} {worker : String} {leaseUntil : Nat}
    {ids : List Uuid} {drawn : Nat} {outbox : MemoryOutbox} {delivery : OutboxDelivery}
    (issued : delivery ∈ (issue source worker leaseUntil ids drawn outbox).1) :
    ∃ id ∈ ids, ∃ entry, outbox.active[id]? = some entry ∧ delivery.event = entry.event := by
  induction ids generalizing drawn outbox with
  | nil => cases issued
  | cons id rest ih =>
    simp only [issue] at issued
    cases found : outbox.active[id]? with
    | none =>
      rw [found] at issued
      obtain ⟨other, member, facts⟩ := ih issued
      exact ⟨other, List.mem_cons_of_mem _ member, facts⟩
    | some entry =>
      rw [found] at issued
      rcases List.mem_cons.mp issued with rfl | later
      · exact ⟨id, List.mem_cons_self, entry, found, rfl⟩
      · obtain ⟨other, member, stored, present, same⟩ := ih later
        rw [OrderedMap.getElem?_insert_ite] at present
        split at present
        · rename_i equal
          obtain rfl := Option.some.inj present
          exact ⟨id, List.mem_cons_self, entry, found, same⟩
        · exact ⟨other, List.mem_cons_of_mem _ member, stored, present, same⟩

theorem append_cases (event : OutboxEvent) :
    (∃ error, (append event).call outbox = (.error error, outbox)) ∨
      ((append event).call outbox = (.ok (), outbox) ∧
        ∃ stored, outbox.existing event.id = some stored ∧ stored.sameIdentity event) ∨
      (event.validate = .ok () ∧ outbox.existing event.id = none ∧
        (append event).call outbox = (.ok (),
          { outbox with active := outbox.active.insert event.id (.unleased event) })) := by
  simp only [append, call_bind, call_liftExcept, call_get]
  cases event.validate with
  | error error => exact .inl ⟨error, rfl⟩
  | ok =>
    dsimp only
    cases outbox.existing event.id with
    | none => exact .inr (.inr ⟨rfl, rfl, rfl⟩)
    | some stored =>
      by_cases same : stored.sameIdentity event
      · exact .inr (.inl ⟨by simp [same], stored, rfl, same⟩)
      · exact .inl ⟨.duplicateEvent, by simp [same]⟩

theorem replayDeadLetter_cases (id : Uuid) (availableAt now : Nat) :
    (outbox.dead[id]? = none ∧
        (replayDeadLetter id availableAt now).call outbox = (.error .outboxNotFound, outbox)) ∨
      ∃ letter, outbox.dead[id]? = some letter ∧
        (replayDeadLetter id availableAt now).call outbox = (.ok (), { outbox with
          dead := outbox.dead.erase id
          active := outbox.active.insert id
            (.unleased { letter.event with availableAt := max availableAt now }) }) := by
  simp only [replayDeadLetter, call_bind, call_get]
  cases outbox.dead[id]? with
  | none => exact .inl ⟨rfl, rfl⟩
  | some letter => exact .inr ⟨letter, rfl, rfl⟩

theorem existing_eq_none_iff (id : Uuid) :
    outbox.existing id = none ↔
      outbox.active[id]? = none ∧ outbox.dead[id]? = none ∧ outbox.completed[id]? = none := by
  simp [existing]

end MemoryOutbox

end Elura
