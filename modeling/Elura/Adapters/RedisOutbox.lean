import Elura.Core.Outbox

/-!
The outbox of `elura-adapters` on Redis keys. Every method is one atomic script; an event is
spread over eight keys and moves through the same states as an entry of the in-memory store.
-/

namespace Elura

open Fallible List Option
open OrderedMap (getElem?_insert_ite getElem?_erase_ite)

open Std (ExtTreeMap)

/-- The keys under one prefix. The hashes hold JSON texts, here the values they
encode; a sorted set maps its members to their scores. -/
structure RedisOutbox where
  dedup : ExtTreeMap Uuid OutboxEvent
  events : ExtTreeMap Uuid OutboxEvent
  available : ExtTreeMap Uuid Nat
  leases : ExtTreeMap Uuid Nat
  leaseInfo : ExtTreeMap Uuid (String × Uuid)
  attempts : ExtTreeMap Uuid Nat
  errors : ExtTreeMap Uuid String
  dead : ExtTreeMap Uuid DeadLetter

namespace RedisOutbox

def new : RedisOutbox where
  dedup := ∅
  events := ∅
  available := ∅
  leases := ∅
  leaseInfo := ∅
  attempts := ∅
  errors := ∅
  dead := ∅

/-- The text that names worker and token; the token's part has a fixed length. -/
def owner (delivery : OutboxDelivery) : String × Uuid :=
  (delivery.worker, delivery.token)

/-- The members up to a score, lowest score first and then by member. -/
def scored (set : ExtTreeMap Uuid Nat) (score : Nat) : List Uuid :=
  ((set.toList.filter (fun item => item.2 ≤ score)).insertionSort
    (fun left right => left.2 < right.2 ∨ left.2 = right.2 ∧ left.1 ≤ right.1)).map (·.1)

def zrangeByScore (set : ExtTreeMap Uuid Nat) (score limit : Nat) : List Uuid :=
  (scored set score).take limit

def append (event : OutboxEvent) : Fallible RedisOutbox Error Unit := do
  liftM event.validate
  let redis ← get
  let stored ← match redis.dedup[event.id]? with
    | some existing => pure existing
    | none => do
        set { redis with
          dedup := redis.dedup.insert event.id event
          events := redis.events.insert event.id event
          available := redis.available.insert event.id event.availableAt }
        pure event
  if stored.sameIdentity event then return () else throw .duplicateEvent

/-- The first loop of the acquire script: leases that ran out go back to the
available events. -/
def reclaim (now : Nat) (ids : List Uuid) (redis : RedisOutbox) : RedisOutbox :=
  ids.foldl (fun redis id => { redis with
    available :=
      if id ∈ redis.events then redis.available.insert id now else redis.available
    leases := redis.leases.erase id
    leaseInfo := redis.leaseInfo.erase id }) redis

def claim (leaseUntil : Nat) (holder : String × Uuid) :
    List Uuid → RedisOutbox → List (Uuid × OutboxEvent × Nat) × RedisOutbox
  | [], redis => ([], redis)
  | id :: rest, redis =>
    match redis.events[id]? with
    | none => claim leaseUntil holder rest { redis with available := redis.available.erase id }
    | some event =>
      let attempt := redis.attempts[id]?.getD 0 + 1
      let (result, after) := claim leaseUntil holder rest { redis with
        available := redis.available.erase id
        leases := redis.leases.insert id leaseUntil
        leaseInfo := redis.leaseInfo.insert id holder
        attempts := redis.attempts.insert id attempt }
      ((id, event, attempt) :: result, after)

def parseDelivery (worker : String) (token : Uuid) (leaseUntil : Nat)
    (claimed : Uuid × OutboxEvent × Nat) : Except Error OutboxDelivery :=
  if claimed.2.2 ≤ u32Max then
    .ok { event := claimed.2.1, attempt := claimed.2.2, worker, token, leaseUntil }
  else .error (.internal "number too large to fit in target type")

def acquire (worker : String) (limit lease : Nat) (token : Uuid) (now : Nat) :
    Fallible RedisOutbox Error (List OutboxDelivery) := do
  liftM (validateLease worker limit lease)
  let redis ← get
  let reclaimed := redis.reclaim now (zrangeByScore redis.leases now limit)
  let (values, after) := claim (now + lease) (worker, token)
    (zrangeByScore reclaimed.available now limit) reclaimed
  set after
  liftM (values.mapM (parseDelivery worker token (now + lease)))

/-- What the scripts on a delivery have in common: they do nothing and report it
unless the delivery owns the lease and the lease has not run out. -/
def onLease (check : Except Error Unit) (delivery : OutboxDelivery) (now : Nat)
    (change : RedisOutbox → RedisOutbox) : Fallible RedisOutbox Error Unit := do
  liftM check
  let redis ← get
  if redis.leaseInfo[delivery.event.id]? ≠ some (owner delivery) ∨
      redis.leases[delivery.event.id]?.all (· ≤ now) then
    throw .outboxLeaseLost
  else set (change redis)

def ack (delivery : OutboxDelivery) (now : Nat) : Fallible RedisOutbox Error Unit :=
  onLease (.ok ()) delivery now (fun redis => { redis with
    events := redis.events.erase delivery.event.id
    available := redis.available.erase delivery.event.id
    leases := redis.leases.erase delivery.event.id
    leaseInfo := redis.leaseInfo.erase delivery.event.id
    attempts := redis.attempts.erase delivery.event.id
    errors := redis.errors.erase delivery.event.id })

def renew (delivery : OutboxDelivery) (lease now : Nat) : Fallible RedisOutbox Error Unit :=
  onLease (validateLease delivery.worker 1 lease) delivery now (fun redis => { redis with
    leases := redis.leases.insert delivery.event.id (now + lease) })

def retry (delivery : OutboxDelivery) (availableAt : Nat) (reason : String) (now : Nat) :
    Fallible RedisOutbox Error Unit :=
  let event := { delivery.event with availableAt := max availableAt now }
  onLease (validateFailureReason reason) delivery now (fun redis => { redis with
    events := redis.events.insert delivery.event.id event
    available := redis.available.insert delivery.event.id event.availableAt
    leases := redis.leases.erase delivery.event.id
    leaseInfo := redis.leaseInfo.erase delivery.event.id
    errors := redis.errors.insert delivery.event.id reason })

def deadLetter (delivery : OutboxDelivery) (reason : String) (now : Nat) :
    Fallible RedisOutbox Error Unit :=
  let letter : DeadLetter :=
    { event := delivery.event, attempt := delivery.attempt, reason, failedAt := now }
  onLease (validateFailureReason reason) delivery now (fun redis => { redis with
    dead := redis.dead.insert delivery.event.id letter
    events := redis.events.erase delivery.event.id
    available := redis.available.erase delivery.event.id
    leases := redis.leases.erase delivery.event.id
    leaseInfo := redis.leaseInfo.erase delivery.event.id
    attempts := redis.attempts.erase delivery.event.id
    errors := redis.errors.erase delivery.event.id })

def replayDeadLetter (id : Uuid) (availableAt now : Nat) : Fallible RedisOutbox Error Unit := do
  let redis ← get
  match redis.dead[id]? with
  | none => throw .outboxNotFound
  | some letter =>
    let event := { letter.event with availableAt := max availableAt now }
    set { redis with
      dead := redis.dead.erase id
      events := redis.events.insert id event
      available := redis.available.insert id event.availableAt
      leases := redis.leases.erase id
      leaseInfo := redis.leaseInfo.erase id
      attempts := redis.attempts.erase id
      errors := redis.errors.erase id }

def Holds (redis : RedisOutbox) (delivery : OutboxDelivery) (now : Nat) : Prop :=
  redis.leaseInfo[delivery.event.id]? = some (owner delivery) ∧
    ∃ leaseUntil, redis.leases[delivery.event.id]? = some leaseUntil ∧ now < leaseUntil

theorem onLease_cases (redis : RedisOutbox) (check : Except Error Unit)
    (delivery : OutboxDelivery) (now : Nat) (change : RedisOutbox → RedisOutbox) :
    (¬(check = .ok () ∧ redis.Holds delivery now) ∧
        ∃ error, (onLease check delivery now change).call redis = (.error error, redis)) ∨
      (check = .ok () ∧ redis.Holds delivery now ∧
        (onLease check delivery now change).call redis = (.ok (), change redis)) := by
  have held : redis.Holds delivery now ↔
      ¬(redis.leaseInfo[delivery.event.id]? ≠ some (owner delivery) ∨
        redis.leases[delivery.event.id]?.all (· ≤ now)) := by
    unfold Holds
    push Not
    cases redis.leases[delivery.event.id]? with
    | none | some => simp
  simp only [onLease, call_bind]
  cases check with
  | error error => exact .inl ⟨by simp, error, rfl⟩
  | ok =>
    simp only [call_ite]
    by_cases lost : redis.leaseInfo[delivery.event.id]? ≠ some (owner delivery) ∨
        redis.leases[delivery.event.id]?.all (· ≤ now)
    · exact .inl ⟨fun both => held.mp both.2 lost, .outboxLeaseLost, if_pos lost⟩
    · exact .inr ⟨trivial, held.mpr lost, if_neg lost⟩

end RedisOutbox

open RedisOutbox

section Correspondence

variable {now : Nat} {redis : RedisOutbox} {memory : MemoryOutbox}

structure RedisSlot where
  dedup : Option OutboxEvent
  event : Option OutboxEvent
  available : Option Nat
  lease : Option Nat
  holder : Option (String × Uuid)
  attempts : Option Nat
  error : Option String
  dead : Option DeadLetter

structure MemorySlot where
  active : Option OutboxEntry
  dead : Option DeadLetter
  completed : Option OutboxEvent

def MemorySlot.existing (slot : MemorySlot) : Option OutboxEvent :=
  (slot.active.map (·.event)).or ((slot.dead.map (·.event)).or slot.completed)

def RedisOutbox.slot (redis : RedisOutbox) (id : Uuid) : RedisSlot where
  dedup := redis.dedup[id]?
  event := redis.events[id]?
  available := redis.available[id]?
  lease := redis.leases[id]?
  holder := redis.leaseInfo[id]?
  attempts := redis.attempts[id]?
  error := redis.errors[id]?
  dead := redis.dead[id]?

def MemoryOutbox.slot (memory : MemoryOutbox) (id : Uuid) : MemorySlot where
  active := memory.active[id]?
  dead := memory.dead[id]?
  completed := memory.completed[id]?

/-- One event in both stores. An event whose lease ran out may already be back
among the available ones on Redis while the in-memory entry still names the last
holder; a completed event is known to Redis by its first version only. -/
inductive SlotCorresponds (now : Nat) (id : Uuid) : RedisSlot → MemorySlot → Prop
  | unknown :
      SlotCorresponds now id ⟨none, none, none, none, none, none, none, none⟩ ⟨none, none, none⟩
  | waiting (original event : OutboxEvent) (attempts : Option Nat) (error : Option String)
      (named : event.id = id) (identity : original.sameIdentity event) :
      SlotCorresponds now id
        ⟨some original, some event, some event.availableAt, none, none, attempts, error, none⟩
        ⟨some ⟨event, min (attempts.getD 0) u32Max, none, none, none, error.getD ""⟩, none, none⟩
  | leased (original event : OutboxEvent) (attempts : Option Nat) (error : Option String)
      (worker : String) (token : Uuid) (leaseUntil : Nat)
      (named : event.id = id) (identity : original.sameIdentity event) :
      SlotCorresponds now id
        ⟨some original, some event, none, some leaseUntil, some (worker, token), attempts, error,
          none⟩
        ⟨some ⟨event, min (attempts.getD 0) u32Max, some worker, some token, some leaseUntil,
          error.getD ""⟩, none, none⟩
  | reclaimed (original event : OutboxEvent) (attempts : Option Nat) (error : Option String)
      (worker : Option String) (token : Option Uuid) (score leaseUntil : Nat)
      (named : event.id = id) (identity : original.sameIdentity event)
      (due : score ≤ now) (expired : leaseUntil ≤ now) :
      SlotCorresponds now id
        ⟨some original, some event, some score, none, none, attempts, error, none⟩
        ⟨some ⟨event, min (attempts.getD 0) u32Max, worker, token, some leaseUntil,
          error.getD ""⟩, none, none⟩
  | dead (original : OutboxEvent) (letter : DeadLetter)
      (named : letter.event.id = id) (identity : original.sameIdentity letter.event) :
      SlotCorresponds now id ⟨some original, none, none, none, none, none, none, some letter⟩
        ⟨none, some letter, none⟩
  | completed (original event : OutboxEvent) (identity : original.sameIdentity event) :
      SlotCorresponds now id ⟨some original, none, none, none, none, none, none, none⟩
        ⟨none, none, some event⟩

def Corresponds (now : Nat) (redis : RedisOutbox) (memory : MemoryOutbox) : Prop :=
  ∀ id, SlotCorresponds now id (redis.slot id) (memory.slot id)

theorem SlotCorresponds.later {next : Nat} {id : Uuid} {redis : RedisSlot} {memory : MemorySlot}
    (corresponds : SlotCorresponds now id redis memory) (forward : now ≤ next) :
    SlotCorresponds next id redis memory := by
  cases corresponds with
  | reclaimed original event attempts error worker token score leaseUntil named identity due
      expired =>
      exact .reclaimed original event attempts error worker token score leaseUntil named identity
        (le_trans due forward) (le_trans expired forward)
  | _ => constructor <;> assumption

section Slots

variable {id : Uuid} {redis : RedisSlot} {memory : MemorySlot}
  (slots : SlotCorresponds now id redis memory)
include slots

theorem SlotCorresponds.dead_absent (absent : memory.dead = none) : redis.dead = none := by
  cases slots with
  | dead => cases absent
  | _ => rfl

theorem SlotCorresponds.dead_present {letter : DeadLetter} (present : memory.dead = some letter) :
    ∃ original : OutboxEvent, letter.event.id = id ∧ original.sameIdentity letter.event ∧
      redis = ⟨some original, none, none, none, none, none, none, some letter⟩ ∧
      memory = ⟨none, some letter, none⟩ := by
  cases slots with
  | dead original _ named identity =>
    obtain rfl := some.inj present
    exact ⟨original, named, identity, rfl, rfl⟩
  | _ => cases present

theorem SlotCorresponds.existing :
    (redis = ⟨none, none, none, none, none, none, none, none⟩ ∧ memory = ⟨none, none, none⟩) ∨
      ∃ original stored : OutboxEvent, redis.dedup = some original ∧
        memory.existing = some stored ∧ original.sameIdentity stored := by
  cases slots with
  | unknown => exact .inl ⟨rfl, rfl⟩
  | waiting original event _ _ _ identity | leased original event _ _ _ _ _ _ identity
  | reclaimed original event _ _ _ _ _ _ _ identity | completed original event identity =>
    exact .inr ⟨original, event, rfl, rfl, identity⟩
  | dead original letter _ identity =>
    exact .inr ⟨original, letter.event, rfl, rfl, identity⟩

theorem SlotCorresponds.event_named {event : OutboxEvent} (found : redis.event = some event) :
    event.id = id := by
  cases slots with
  | waiting _ _ _ _ named | leased _ _ _ _ _ _ _ named | reclaimed _ _ _ _ _ _ _ _ named =>
    exact some.inj found ▸ named
  | _ => cases found

theorem SlotCorresponds.completed_of (known : redis.dedup.isSome) (inactive : ¬redis.event.isSome)
    (alive : ¬redis.dead.isSome) : memory.completed.isSome := by
  cases slots <;> simp_all

end Slots

theorem Corresponds.later {next : Nat} (corresponds : Corresponds now redis memory)
    (forward : now ≤ next) : Corresponds next redis memory :=
  fun id => (corresponds id).later forward

/-- Both stores changed one event only. -/
theorem Corresponds.change {redisAfter : RedisOutbox} {memoryAfter : MemoryOutbox}
    (corresponds : Corresponds now redis memory) (id : Uuid)
    (frame : ∀ other, id ≠ other →
      redisAfter.slot other = redis.slot other ∧ memoryAfter.slot other = memory.slot other)
    (own : SlotCorresponds now id (redisAfter.slot id) (memoryAfter.slot id)) :
    Corresponds now redisAfter memoryAfter := by
  intro other
  by_cases same : id = other
  · exact same ▸ own
  · rw [(frame other same).1, (frame other same).2]
    exact corresponds other

theorem Corresponds.holding (corresponds : Corresponds now redis memory)
    (delivery : OutboxDelivery) :
    (¬redis.Holds delivery now ∧ ¬memory.Holds delivery now) ∨
      (redis.Holds delivery now ∧ memory.Holds delivery now ∧
        ∃ original event attempts error leaseUntil,
          event.id = delivery.event.id ∧ original.sameIdentity event ∧
          redis.slot delivery.event.id = ⟨some original, some event, none, some leaseUntil,
            some (delivery.worker, delivery.token), attempts, error, none⟩ ∧
          memory.slot delivery.event.id = ⟨some ⟨event, min (attempts.getD 0) u32Max,
            some delivery.worker, some delivery.token, some leaseUntil, error.getD ""⟩,
            none, none⟩) := by
  have slots := corresponds delivery.event.id
  have redisHolds : redis.Holds delivery now ↔
      (redis.slot delivery.event.id).holder = some (delivery.worker, delivery.token) ∧
      ∃ leaseUntil, (redis.slot delivery.event.id).lease = some leaseUntil ∧ now < leaseUntil :=
    Iff.rfl
  have memoryHolds : memory.Holds delivery now ↔
      ∃ entry, (memory.slot delivery.event.id).active = some entry ∧
        entry.HeldBy delivery now := Iff.rfl
  rw [redisHolds, memoryHolds]
  generalize redis.slot delivery.event.id = redisSlot at slots
  generalize memory.slot delivery.event.id = memorySlot at slots
  cases slots with
  | unknown | dead | completed => exact .inl ⟨by simp, by simp⟩
  | waiting =>
    exact .inl ⟨by simp, by simp [OutboxEntry.HeldBy]⟩
  | leased original event attempts error worker token leaseUntil named identity =>
    by_cases held : worker = delivery.worker ∧ token = delivery.token ∧ now < leaseUntil
    · obtain ⟨rfl, rfl, unexpired⟩ := held
      exact .inr ⟨⟨rfl, leaseUntil, rfl, unexpired⟩,
        ⟨_, rfl, rfl, rfl, leaseUntil, rfl, unexpired⟩,
        original, event, attempts, error, leaseUntil, named, identity, rfl, rfl⟩
    · refine .inl ⟨?_, ?_⟩
      · rintro ⟨owned, until_, same, unexpired⟩
        simp only [some.injEq, Prod.mk.injEq] at owned same
        exact held ⟨owned.1, owned.2, same ▸ unexpired⟩
      · rintro ⟨entry, same, sameWorker, sameToken, until_, leased, unexpired⟩
        obtain rfl := some.inj same
        simp only [some.injEq] at sameWorker sameToken leased
        exact held ⟨sameWorker, sameToken, leased ▸ unexpired⟩
  | reclaimed =>
    refine .inl ⟨by simp, ?_⟩
    rintro ⟨entry, same, _, _, until_, leased, unexpired⟩
    obtain rfl := some.inj same
    simp only [some.injEq] at leased
    omega

def Agree (now : Nat) (redis : RedisOutbox) (memory : MemoryOutbox)
    (onRedis : Fallible RedisOutbox Error Unit) (onMemory : Fallible MemoryOutbox Error Unit) :
    Prop :=
  ((onRedis.call redis).1 = .ok () ↔ (onMemory.call memory).1 = .ok ()) ∧
    Corresponds now (onRedis.call redis).2 (onMemory.call memory).2

theorem Corresponds.agree_onLease (corresponds : Corresponds now redis memory)
    (delivery : OutboxDelivery) {redisCheck memoryCheck : Except Error Unit}
    (checks : redisCheck = .ok () ↔ memoryCheck = .ok ()) {redisChange : RedisOutbox → RedisOutbox}
    {memoryChange : OutboxEntry → MemoryOutbox → MemoryOutbox}
    (changed : ∀ original event attempts error leaseUntil,
      event.id = delivery.event.id → original.sameIdentity event →
      redis.slot delivery.event.id = ⟨some original, some event, none, some leaseUntil,
        some (delivery.worker, delivery.token), attempts, error, none⟩ →
      memory.slot delivery.event.id = ⟨some ⟨event, min (attempts.getD 0) u32Max,
        some delivery.worker, some delivery.token, some leaseUntil, error.getD ""⟩,
        none, none⟩ →
      Corresponds now (redisChange redis) (memoryChange ⟨event, min (attempts.getD 0) u32Max,
        some delivery.worker, some delivery.token, some leaseUntil, error.getD ""⟩ memory)) :
    Agree now redis memory (RedisOutbox.onLease redisCheck delivery now redisChange)
      (MemoryOutbox.onLease memoryCheck delivery now memoryChange) := by
  unfold Agree
  have redisCases := RedisOutbox.onLease_cases redis redisCheck delivery now redisChange
  rcases MemoryOutbox.onLease_cases memory memoryCheck delivery now memoryChange with
    ⟨refused, _, failed⟩ | ⟨passed, entry, found, held, done⟩
  · rcases redisCases with ⟨_, _, redisFailed⟩ | ⟨redisPassed, redisHolds, _⟩
    · rw [failed, redisFailed]
      exact ⟨by simp, corresponds⟩
    · rcases corresponds.holding delivery with ⟨lost, _⟩ | ⟨_, holds, _⟩
      · exact absurd redisHolds lost
      · exact absurd ⟨checks.mp redisPassed, holds⟩ refused
  · rcases corresponds.holding delivery with
      ⟨_, lost⟩ | ⟨redisHolds, _, original, event, attempts, error, leaseUntil, named, identity,
        redisSlot, memorySlot⟩
    · exact absurd ⟨entry, found, held⟩ lost
    · rcases redisCases with ⟨refused, _⟩ | ⟨_, _, redisDone⟩
      · exact absurd ⟨checks.mpr passed, redisHolds⟩ refused
      · cases (congrArg MemorySlot.active memorySlot).symm.trans found
        rw [done, redisDone]
        exact ⟨by simp, changed original event attempts error leaseUntil named identity redisSlot
          memorySlot⟩

section Methods

variable {now : Nat} {redis : RedisOutbox} {memory : MemoryOutbox}

section

variable (corresponds : Corresponds now redis memory)
include corresponds

variable (delivery : OutboxDelivery)

theorem Corresponds.ack :
    Agree now redis memory (RedisOutbox.ack delivery now) (MemoryOutbox.ack delivery now) := by
  refine corresponds.agree_onLease delivery Iff.rfl ?_
  intro original event attempts error leaseUntil named identity redisSlot memorySlot
  refine corresponds.change delivery.event.id ?_ ?_
  · intro other different
    simp [RedisOutbox.slot, MemoryOutbox.slot, getElem?_erase_ite, getElem?_insert_ite, named,
      different]
  · simp only [RedisOutbox.slot, MemoryOutbox.slot, RedisSlot.mk.injEq,
      MemorySlot.mk.injEq] at redisSlot memorySlot
    simp only [RedisOutbox.slot, MemoryOutbox.slot, getElem?_erase_ite, getElem?_insert_ite, named,
      redisSlot, memorySlot]
    exact .completed original event identity

theorem Corresponds.renew (lease : Nat) (valid : validateLease delivery.worker 1 1 = .ok ()) :
    Agree now redis memory (RedisOutbox.renew delivery lease now)
      (MemoryOutbox.renew delivery lease now now) := by
  have checks : validateLease delivery.worker 1 lease = .ok () ↔
      (if lease = 0 then .error (.invalidConfig "invalid outbox lease") else .ok () :
        Except Error Unit) = .ok () := by
    rw [validateLease_ok_iff] at valid ⊢
    by_cases zero : lease = 0
    · simp [zero]
    · simp [zero, valid.1, valid.2.1, Nat.pos_of_ne_zero zero]
  refine corresponds.agree_onLease delivery checks ?_
  intro original event attempts error leaseUntil named identity redisSlot memorySlot
  refine corresponds.change delivery.event.id ?_ ?_
  · intro other different
    simp [RedisOutbox.slot, MemoryOutbox.slot, getElem?_insert_ite, different]
  · simp only [RedisOutbox.slot, MemoryOutbox.slot, RedisSlot.mk.injEq,
      MemorySlot.mk.injEq] at redisSlot memorySlot
    simp only [RedisOutbox.slot, MemoryOutbox.slot, getElem?_insert_ite, redisSlot, memorySlot]
    exact .leased original event attempts error _ _ _ named identity

theorem Corresponds.retry (availableAt : Nat) (reason : String)
    (genuine : redis.leaseInfo[delivery.event.id]? = some (RedisOutbox.owner delivery) →
      redis.events[delivery.event.id]? = some delivery.event) :
    Agree now redis memory (RedisOutbox.retry delivery availableAt reason now)
      (MemoryOutbox.retry delivery availableAt reason now now) := by
  refine corresponds.agree_onLease delivery Iff.rfl ?_
  intro original event attempts error leaseUntil named identity redisSlot memorySlot
  refine corresponds.change delivery.event.id ?_ ?_
  · intro other different
    simp [RedisOutbox.slot, MemoryOutbox.slot, getElem?_erase_ite, getElem?_insert_ite, different]
  · simp only [RedisOutbox.slot, MemoryOutbox.slot, RedisSlot.mk.injEq,
      MemorySlot.mk.injEq] at redisSlot memorySlot
    have same := genuine redisSlot.2.2.2.2.1
    rw [redisSlot.2.1, some.injEq] at same
    subst event
    simp only [RedisOutbox.slot, MemoryOutbox.slot, getElem?_erase_ite, getElem?_insert_ite,
      redisSlot, memorySlot]
    exact .waiting original { delivery.event with availableAt := max availableAt now } attempts
      (some reason) rfl identity

theorem Corresponds.deadLetter (reason : String)
    (genuine : redis.leaseInfo[delivery.event.id]? = some (RedisOutbox.owner delivery) →
      redis.events[delivery.event.id]? = some delivery.event ∧
      redis.attempts[delivery.event.id]? = some delivery.attempt ∧ delivery.attempt ≤ u32Max) :
    Agree now redis memory (RedisOutbox.deadLetter delivery reason now)
      (MemoryOutbox.deadLetter delivery reason now now) := by
  refine corresponds.agree_onLease delivery Iff.rfl ?_
  intro original event attempts error leaseUntil named identity redisSlot memorySlot
  refine corresponds.change delivery.event.id ?_ ?_
  · intro other different
    simp [RedisOutbox.slot, MemoryOutbox.slot, getElem?_erase_ite, getElem?_insert_ite, named,
      different]
  · simp only [RedisOutbox.slot, MemoryOutbox.slot, RedisSlot.mk.injEq,
      MemorySlot.mk.injEq] at redisSlot memorySlot
    obtain ⟨same, counted, bounded⟩ := genuine redisSlot.2.2.2.2.1
    rw [redisSlot.2.1, some.injEq] at same
    rw [redisSlot.2.2.2.2.2.1] at counted
    subst event attempts
    simp only [RedisOutbox.slot, MemoryOutbox.slot, getElem?_erase_ite, getElem?_insert_ite,
      redisSlot, memorySlot, getD_some, min_eq_left bounded]
    exact .dead original _ rfl identity

theorem Corresponds.replayDeadLetter (id : Uuid)
    (availableAt : Nat) :
    Agree now redis memory (RedisOutbox.replayDeadLetter id availableAt now)
      (MemoryOutbox.replayDeadLetter id availableAt now) := by
  unfold Agree
  have redisDead : redis.dead[id]? = (redis.slot id).dead := rfl
  simp only [RedisOutbox.replayDeadLetter, call_bind, call_get, redisDead]
  rcases MemoryOutbox.replayDeadLetter_cases memory id availableAt now with
    ⟨absent, failed⟩ | ⟨letter, dead, replayed⟩
  · rw [failed, (corresponds id).dead_absent absent]
    exact ⟨by simp, corresponds⟩
  · obtain ⟨original, named, identity, redisSlot, memorySlot⟩ := (corresponds id).dead_present dead
    rw [replayed, redisSlot]
    refine ⟨by simp, corresponds.change id ?_ ?_⟩
    · intro other different
      simp [RedisOutbox.slot, MemoryOutbox.slot, getElem?_erase_ite, getElem?_insert_ite, different]
    · simp only [RedisOutbox.slot, MemoryOutbox.slot, RedisSlot.mk.injEq,
        MemorySlot.mk.injEq] at redisSlot memorySlot
      simp only [call_set, RedisOutbox.slot, MemoryOutbox.slot, getElem?_erase_ite,
        getElem?_insert_ite, redisSlot, memorySlot]
      exact .waiting original { letter.event with availableAt := max availableAt now } none none
        named identity

theorem Corresponds.append (event : OutboxEvent) :
    Agree now redis memory (RedisOutbox.append event) (MemoryOutbox.append event) := by
  unfold Agree
  simp only [RedisOutbox.append, MemoryOutbox.append, call_bind, call_liftExcept, call_get]
  cases event.validate with
  | error => exact ⟨Iff.rfl, corresponds⟩
  | ok =>
    have redisKnown : redis.dedup[event.id]? = (redis.slot event.id).dedup := rfl
    have memoryKnown : memory.existing event.id = (memory.slot event.id).existing := rfl
    rcases (corresponds event.id).existing with
      ⟨redisSlot, memorySlot⟩ | ⟨original, stored, redisOld, memoryOld, identity⟩
    · simp only [redisKnown, redisSlot, memoryKnown, memorySlot, MemorySlot.existing, call_bind,
        call_set, call_pure, map_none, or_none, event.sameIdentity_refl, if_true,
        true_and]
      refine corresponds.change event.id ?_ ?_
      · intro other different
        simp [RedisOutbox.slot, MemoryOutbox.slot, getElem?_insert_ite, different]
      · simp only [RedisOutbox.slot, MemoryOutbox.slot, RedisSlot.mk.injEq,
          MemorySlot.mk.injEq] at redisSlot memorySlot
        simp only [RedisOutbox.slot, MemoryOutbox.slot, getElem?_insert_ite, redisSlot, memorySlot]
        exact .waiting event event none none rfl event.sameIdentity_refl
    · have same : original.sameIdentity event = stored.sameIdentity event := by
        simp only [OutboxEvent.sameIdentity, (OutboxEvent.sameIdentity_iff _ _).mp identity]
      simp only [redisKnown, redisOld, memoryKnown, memoryOld, call_bind, call_pure, same]
      split
      · exact ⟨Iff.rfl, corresponds⟩
      · exact ⟨by simp, corresponds⟩

end

end Methods

section Acquire

variable {now : Nat} {redis : RedisOutbox} {memory : MemoryOutbox}
variable {ids : List Uuid}

theorem RedisOutbox.mem_scored (set : ExtTreeMap Uuid Nat) (score : Nat) (id : Uuid) :
    id ∈ scored set score ↔ ∃ value, set[id]? = some value ∧ value ≤ score := by
  simp [scored]

theorem RedisOutbox.scored_nodup (set : ExtTreeMap Uuid Nat) (score : Nat) :
    (scored set score).Nodup := by
  unfold scored
  rw [((perm_insertionSort _ _).map _).nodup_iff]
  have distinct : (set.toList.map (·.1)).Nodup := by
    rw [ExtTreeMap.map_fst_toList_eq_keys]
    exact ExtTreeMap.nodup_keys
  exact distinct.sublist (filter_sublist.map _)

def RedisSlot.reclaim (now : Nat) (slot : RedisSlot) : RedisSlot :=
  { slot with
    available := if slot.event.isSome then some now else slot.available
    lease := none
    holder := none }

theorem RedisOutbox.reclaim_slot (ids : List Uuid) (redis : RedisOutbox) (id : Uuid) :
    (redis.reclaim now ids).slot id =
      if id ∈ ids then (redis.slot id).reclaim now else redis.slot id := by
  induction ids generalizing redis with
  | nil => rfl
  | cons first rest ih =>
    have step : ∀ other, ({ redis with
        available :=
          if first ∈ redis.events then redis.available.insert first now else redis.available
        leases := redis.leases.erase first
        leaseInfo := redis.leaseInfo.erase first } : RedisOutbox).slot other =
          if first = other then (redis.slot other).reclaim now else redis.slot other := by
      intro other
      by_cases same : first = other
      · subst other
        simp only [slot, RedisSlot.reclaim]
        split <;> simp_all
      · simp only [slot, getElem?_erase_ite]
        split <;> simp [getElem?_insert_ite, same]
    rw [reclaim]
    refine (ih _).trans ?_
    rw [step]
    by_cases same : first = id
    · subst id
      simp only [mem_cons_self]
      split
      · simp only [RedisSlot.reclaim]
        split <;> simp_all
      · rfl
    · have mem_iff : id ∈ first :: rest ↔ id ∈ rest := by
        simp [Ne.symm same]
      simp only [if_neg same, mem_iff]

def RedisSlot.claim (leaseUntil : Nat) (holder : String × Uuid) (slot : RedisSlot) : RedisSlot :=
  { slot with
    available := none
    lease := some leaseUntil
    holder := some holder
    attempts := some (slot.attempts.getD 0 + 1) }

theorem RedisOutbox.claim_spec {leaseUntil : Nat} {holder : String × Uuid} {redis : RedisOutbox}
    (distinct : ids.Nodup) (present : ∀ id ∈ ids, id ∈ redis.events) :
    (∀ id, (claim leaseUntil holder ids redis).2.slot id =
        if id ∈ ids then (redis.slot id).claim leaseUntil holder else redis.slot id) ∧
      (claim leaseUntil holder ids redis).1.map (·.1) = ids ∧
      ∀ claimed ∈ (claim leaseUntil holder ids redis).1,
        redis.events[claimed.1]? = some claimed.2.1 ∧
        claimed.2.2 = redis.attempts[claimed.1]?.getD 0 + 1 := by
  induction ids generalizing redis with
  | nil => exact ⟨fun _ => rfl, rfl, nofun⟩
  | cons first rest ih =>
    obtain ⟨fresh, distinctRest⟩ := nodup_cons.mp distinct
    have known := present first mem_cons_self
    rw [ExtTreeMap.mem_iff_isSome_getElem?, isSome_iff_exists] at known
    obtain ⟨event, found⟩ := known
    have presentRest : ∀ id ∈ rest, id ∈ ({ redis with
        available := redis.available.erase first
        leases := redis.leases.insert first leaseUntil
        leaseInfo := redis.leaseInfo.insert first holder
        attempts := redis.attempts.insert first (redis.attempts[first]?.getD 0 + 1) } :
          RedisOutbox).events :=
      fun id member => present id (mem_cons_of_mem _ member)
    obtain ⟨slots, order, values⟩ := ih distinctRest presentRest
    simp only [claim, found]
    refine ⟨?_, ?_, ?_⟩
    · intro id
      rw [slots id]
      by_cases same : first = id
      · subst id
        simp [fresh, slot, RedisSlot.claim]
      · have mem_iff : id ∈ first :: rest ↔ id ∈ rest := by
          simp [Ne.symm same]
        simp only [mem_iff, slot, getElem?_insert_ite, getElem?_erase_ite, if_neg same]
    · rw [map_cons, order]
    · intro claimed member
      rcases mem_cons.mp member with rfl | later
      · exact ⟨found, rfl⟩
      · obtain ⟨stored, counted⟩ := values claimed later
        have different : first ≠ claimed.1 := by
          rintro rfl
          exact fresh (order ▸ mem_map_of_mem later)
        refine ⟨stored, ?_⟩
        simpa only [getElem?_insert_ite, if_neg different] using counted

theorem MemoryOutbox.issue_slot {token : Uuid} {worker : String} {leaseUntil : Nat}
    (distinct : ids.Nodup) (drawn : Nat) (memory : MemoryOutbox) (id : Uuid) :
    (issue (fun _ => token) worker leaseUntil ids drawn memory).2.slot id =
      if id ∈ ids then
        { memory.slot id with
          active := (memory.slot id).active.map (·.leaseTo worker token leaseUntil) }
      else memory.slot id := by
  induction ids generalizing drawn memory with
  | nil => rfl
  | cons first rest ih =>
    obtain ⟨fresh, distinctRest⟩ := nodup_cons.mp distinct
    have mem_iff (different : first ≠ id) : id ∈ first :: rest ↔ id ∈ rest := by
      simp [Ne.symm different]
    simp only [issue]
    cases found : memory.active[first]? with
    | none =>
      simp only [ih distinctRest]
      by_cases same : first = id
      · subst id
        simp [slot, found]
      · simp only [mem_iff same]
    | some =>
      simp only [ih distinctRest]
      by_cases same : first = id
      · subst id
        simp [fresh, slot, found]
      · simp only [mem_iff same, slot, getElem?_insert_ite, if_neg same]

section Slots

variable {id : Uuid} {redis : RedisSlot} {memory : MemorySlot} {leaseUntil score : Nat}
  (slots : SlotCorresponds now id redis memory)
include slots

theorem SlotCorresponds.leased_only (lease : redis.lease = some leaseUntil) :
    redis.available = none ∧ redis.event.isSome := by
  cases slots with
  | leased => exact ⟨rfl, rfl⟩
  | _ => cases lease

theorem SlotCorresponds.reclaimed_of_expired (lease : redis.lease = some leaseUntil)
    (past : leaseUntil ≤ now) : SlotCorresponds now id (redis.reclaim now) memory := by
  cases slots with
  | leased original event attempts error worker token _ named identity =>
    obtain rfl := some.inj lease
    exact .reclaimed original event attempts error (some worker) (some token) now _ named identity
      le_rfl past
  | _ => cases lease

theorem SlotCorresponds.claimed (available : redis.available = some score) (worker : String)
    (token : Uuid) (leaseUntil : Nat) : redis.event.isSome ∧
      SlotCorresponds now id (redis.claim leaseUntil (worker, token))
        { memory with active := memory.active.map (·.leaseTo worker token leaseUntil) } := by
  have counted (attempts : Option Nat) :
      min (min (attempts.getD 0) u32Max + 1) u32Max =
        min ((some (attempts.getD 0 + 1)).getD 0) u32Max := by
    rw [getD_some]
    omega
  cases slots with
  | waiting original event _ error named identity
  | reclaimed original event _ error _ _ _ _ named identity =>
    simp only [map_some, OutboxEntry.leaseTo, counted]
    exact ⟨rfl, .leased original event _ error worker token leaseUntil named identity⟩
  | _ => cases available

end Slots

/-- Returning expired leases to the available events changes nothing the
in-memory store distinguishes. -/
theorem Corresponds.reclaim (corresponds : Corresponds now redis memory)
    (expired : ∀ id ∈ ids, id ∈ scored redis.leases now) :
    Corresponds now (redis.reclaim now ids) memory := by
  intro id
  rw [reclaim_slot]
  split
  · rename_i member
    obtain ⟨leaseUntil, found, past⟩ := (mem_scored _ _ _).mp (expired id member)
    exact (corresponds id).reclaimed_of_expired found past
  · exact corresponds id

theorem Corresponds.claim (corresponds : Corresponds now redis memory) (distinct : ids.Nodup)
    (due : ∀ id ∈ ids, id ∈ scored redis.available now) (worker : String) (token : Uuid)
    (leaseUntil : Nat) :
    (∀ id ∈ ids, id ∈ redis.events) ∧
      Corresponds now (RedisOutbox.claim leaseUntil (worker, token) ids redis).2
        (MemoryOutbox.issue (fun _ => token) worker leaseUntil ids 0 memory).2 := by
  have available : ∀ id ∈ ids, ∃ score, (redis.slot id).available = some score := by
    intro id member
    obtain ⟨score, found, _⟩ := (mem_scored _ _ _).mp (due id member)
    exact ⟨score, found⟩
  have present : ∀ id ∈ ids, id ∈ redis.events := by
    intro id member
    obtain ⟨score, found⟩ := available id member
    rw [ExtTreeMap.mem_iff_isSome_getElem?]
    exact ((corresponds id).claimed found worker token leaseUntil).1
  refine ⟨present, fun id => ?_⟩
  rw [(claim_spec distinct present).1 id, MemoryOutbox.issue_slot distinct]
  split
  · rename_i member
    obtain ⟨score, found⟩ := available id member
    exact ((corresponds id).claimed found worker token leaseUntil).2
  · exact corresponds id

def RedisOutbox.eligible (redis : RedisOutbox) (now : Nat) : List Uuid :=
  redis.events.keys.filter (fun id =>
    redis.available[id]?.any (· ≤ now) || redis.leases[id]?.any (· ≤ now))

section

variable (corresponds : Corresponds now redis memory)
include corresponds

theorem Corresponds.mem_eligible (id : Uuid) :
    id ∈ redis.eligible now ↔ id ∈ scored redis.available now ++
      scored redis.leases now := by
  have slots := corresponds id
  have events : redis.events[id]? = (redis.slot id).event := rfl
  have available : redis.available[id]? = (redis.slot id).available := rfl
  have leases : redis.leases[id]? = (redis.slot id).lease := rfl
  simp only [RedisOutbox.eligible, mem_filter, ExtTreeMap.mem_keys, mem_append,
    ExtTreeMap.mem_iff_isSome_getElem?, mem_scored, events, available, leases]
  generalize redis.slot id = redisSlot at slots
  generalize memory.slot id = memorySlot at slots
  cases slots <;> simp

theorem Corresponds.scored_disjoint {id : Uuid}
    (available : id ∈ scored redis.available now)
    (leased : id ∈ scored redis.leases now) : False := by
  obtain ⟨score, scored, _⟩ := (mem_scored _ _ _).mp available
  obtain ⟨leaseUntil, lease, _⟩ := (mem_scored _ _ _).mp leased
  cases scored.symm.trans ((corresponds id).leased_only lease).1

theorem Corresponds.scored_reclaimed
    (expired : ∀ id ∈ ids, id ∈ scored redis.leases now) (id : Uuid) :
    id ∈ scored (redis.reclaim now ids).available now ↔
      id ∈ scored redis.available now ++ ids := by
  have after : (redis.reclaim now ids).available[id]? =
      ((redis.reclaim now ids).slot id).available := rfl
  have before : redis.available[id]? = (redis.slot id).available := rfl
  rw [mem_append, mem_scored, mem_scored, after, before,
    reclaim_slot]
  by_cases member : id ∈ ids
  · obtain ⟨leaseUntil, found, _⟩ := (mem_scored _ _ _).mp (expired id member)
    obtain ⟨available, event⟩ := (corresponds id).leased_only found
    simp [member, RedisSlot.reclaim, available, event]
  · simp [member]

/-- Returning at most `limit` leases first does not change how many events the
second stage can take. -/
theorem Corresponds.picked_length (limit : Nat) :
    (zrangeByScore (redis.reclaim now
        (zrangeByScore redis.leases now limit)).available now limit).length =
      min limit (redis.eligible now).length := by
  have expired : ∀ id ∈ zrangeByScore redis.leases now limit,
      id ∈ scored redis.leases now := fun id member => mem_of_mem_take member
  have distinctAll : (scored redis.available now ++
      scored redis.leases now).Nodup :=
    nodup_append.mpr ⟨scored_nodup _ _, scored_nodup _ _,
      fun id available _ leased same => corresponds.scored_disjoint available (same ▸ leased)⟩
  have distinctSome : (scored redis.available now ++
      zrangeByScore redis.leases now limit).Nodup :=
    distinctAll.sublist ((List.Sublist.refl _).append (take_sublist _ _))
  have eligibleCount := ((perm_ext_iff_of_nodup
    (ExtTreeMap.nodup_keys.sublist filter_sublist) distinctAll).mpr
    corresponds.mem_eligible).length_eq
  have reclaimedCount := ((perm_ext_iff_of_nodup (scored_nodup _ _)
    distinctSome).mpr (corresponds.scored_reclaimed expired)).length_eq
  simp only [zrangeByScore, length_take, length_append] at *
  change (redis.eligible now).length = _ at eligibleCount
  omega

end

structure Acquired (redis : RedisOutbox) (memory : MemoryOutbox) (worker : String)
    (limit leaseUntil : Nat) (token : Uuid) (now : Nat) (picked : List Uuid)
    (values : List (Uuid × OutboxEvent × Nat)) (after : RedisOutbox) : Prop where
  distinct : picked.Nodup
  count : picked.length = min limit (redis.eligible now).length
  eligible : ∀ id ∈ picked, id ∈ redis.eligible now
  order : values.map (·.1) = picked
  values : ∀ claimed ∈ values, redis.events[claimed.1]? = some claimed.2.1 ∧
    claimed.2.2 = redis.attempts[claimed.1]?.getD 0 + 1
  corresponds : Corresponds now after
    (MemoryOutbox.issue (fun _ => token) worker leaseUntil picked 0 memory).2
  events : ∀ id : Uuid, after.events[id]? = redis.events[id]?
  claimed : ∀ id ∈ picked, after.leaseInfo[id]? = some (worker, token) ∧
    after.attempts[id]? = some (redis.attempts[id]?.getD 0 + 1)
  kept : ∀ id ∉ picked, ∀ holder, after.leaseInfo[id]? = some holder →
    redis.leaseInfo[id]? = some holder ∧ after.attempts[id]? = redis.attempts[id]?

theorem Corresponds.acquire (corresponds : Corresponds now redis memory) {worker : String}
    {limit lease : Nat} (valid : validateLease worker limit lease = .ok ()) (token : Uuid) :
    ∃ picked values after,
      (RedisOutbox.acquire worker limit lease token now).call redis =
        (values.mapM (RedisOutbox.parseDelivery worker token (now + lease)), after) ∧
      Acquired redis memory worker limit (now + lease) token now picked values after := by
  have expired : ∀ id ∈ zrangeByScore redis.leases now limit,
      id ∈ scored redis.leases now := fun id member => mem_of_mem_take member
  have reclaimed := corresponds.reclaim expired
  have count := corresponds.picked_length limit
  have origin := corresponds.scored_reclaimed expired
  have slots := @reclaim_slot now
    (zrangeByScore redis.leases now limit) redis
  generalize middle : redis.reclaim now (zrangeByScore redis.leases now limit) =
    returned at reclaimed count origin slots
  have distinct : (zrangeByScore returned.available now limit).Nodup :=
    (scored_nodup _ _).sublist (take_sublist _ _)
  have due : ∀ id ∈ zrangeByScore returned.available now limit,
      id ∈ scored returned.available now :=
    fun id member => mem_of_mem_take member
  obtain ⟨present, claimedCorresponds⟩ :=
    reclaimed.claim distinct due worker token (now + lease)
  obtain ⟨claimSlots, order, values⟩ :=
    @claim_spec _ (now + lease) (worker, token) _ distinct present
  have sameEvents (id : Uuid) : returned.events[id]? = redis.events[id]? := by
    have same := congrArg RedisSlot.event (slots id)
    split at same <;> exact same
  have sameAttempts (id : Uuid) : returned.attempts[id]? = redis.attempts[id]? := by
    have same := congrArg RedisSlot.attempts (slots id)
    split at same <;> exact same
  refine ⟨_, _, _, ?_, ⟨distinct, count, ?_, order, ?_, claimedCorresponds, ?_, ?_, ?_⟩⟩
  · simp only [RedisOutbox.acquire, call_bind, call_liftExcept, valid, call_get, call_set, middle]
  · intro id member
    rw [corresponds.mem_eligible]
    have known := (origin id).mp (due id member)
    rw [mem_append] at known ⊢
    exact known.imp_right (expired id)
  · intro claimed member
    obtain ⟨stored, counted⟩ := values claimed member
    rw [sameEvents] at stored
    rw [sameAttempts] at counted
    exact ⟨stored, counted⟩
  · intro id
    have same := congrArg RedisSlot.event (claimSlots id)
    refine Eq.trans ?_ (sameEvents id)
    split at same <;> exact same
  · intro id member
    have own := claimSlots id
    rw [if_pos member] at own
    refine ⟨congrArg RedisSlot.holder own, ?_⟩
    rw [← sameAttempts]
    exact congrArg RedisSlot.attempts own
  · intro id absent holder held
    have own := claimSlots id
    rw [if_neg absent] at own
    have heldBefore : returned.leaseInfo[id]? = some holder :=
      (congrArg RedisSlot.holder own).symm.trans held
    have before := congrArg RedisSlot.holder (slots id)
    refine ⟨?_, (congrArg RedisSlot.attempts own).trans (sameAttempts id)⟩
    split at before
    · exact absurd (before.symm.trans heldBefore) (by simp [RedisSlot.reclaim])
    · exact before.symm.trans heldBefore

end Acquire

end Correspondence

end Elura
