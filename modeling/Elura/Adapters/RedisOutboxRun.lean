import Elura.Adapters.RedisOutbox

/-!
Runs of any workers on the Redis outbox, compared with the in-memory store. Both accept and refuse
the same calls; which events an acquisition picks is their own.
-/

namespace Elura

open Fallible List
open OrderedMap (getElem?_insert_ite getElem?_erase_ite)

inductive OutboxOperation
  | append (event : OutboxEvent)
  | ack (delivery : OutboxDelivery)
  | renew (delivery : OutboxDelivery) (lease : Nat)
  | retry (delivery : OutboxDelivery) (availableAt : Nat) (reason : String)
  | deadLetter (delivery : OutboxDelivery) (reason : String)
  | replayDeadLetter (id : Uuid) (availableAt : Nat)

namespace OutboxOperation

def onRedis (now : Nat) : OutboxOperation → Fallible RedisOutbox Error Unit
  | append event => RedisOutbox.append event
  | ack delivery => RedisOutbox.ack delivery now
  | renew delivery lease => RedisOutbox.renew delivery lease now
  | retry delivery availableAt reason => RedisOutbox.retry delivery availableAt reason now
  | deadLetter delivery reason => RedisOutbox.deadLetter delivery reason now
  | replayDeadLetter id availableAt => RedisOutbox.replayDeadLetter id availableAt now

def onMemory (now : Nat) : OutboxOperation → Fallible MemoryOutbox Error Unit
  | append event => MemoryOutbox.append event
  | ack delivery => MemoryOutbox.ack delivery now
  | renew delivery lease => MemoryOutbox.renew delivery lease now now
  | retry delivery availableAt reason => MemoryOutbox.retry delivery availableAt reason now now
  | deadLetter delivery reason => MemoryOutbox.deadLetter delivery reason now now
  | replayDeadLetter id availableAt => MemoryOutbox.replayDeadLetter id availableAt now

def delivery : OutboxOperation → Option OutboxDelivery
  | append _ => none
  | ack delivery => some delivery
  | renew delivery _ => some delivery
  | retry delivery _ _ => some delivery
  | deadLetter delivery _ => some delivery
  | replayDeadLetter _ _ => none

end OutboxOperation

structure RedisRun where
  redis : RedisOutbox
  clock : Nat
  drawn : Nat
  issued : List OutboxDelivery

namespace RedisRun

variable {now : Nat} {redis : RedisOutbox} {memory : MemoryOutbox} {delivery : OutboxDelivery}
  {source : Nat → Uuid}

def start (clock : Nat) : RedisRun where
  redis := .new
  clock
  drawn := 0
  issued := []

def operate (operation : OutboxOperation) (now : Nat) (run : RedisRun) : RedisRun :=
  { run with redis := ((operation.onRedis now).call run.redis).2, clock := now }

def acquire (source : Nat → Uuid) (worker : String) (limit lease now : Nat) (run : RedisRun) :
    Except Error (List OutboxDelivery) × RedisRun :=
  let outcome := (RedisOutbox.acquire worker limit lease (source run.drawn) now).call run.redis
  (outcome.1, {
    redis := outcome.2
    clock := now
    drawn := run.drawn + 1
    issued := run.issued ++ outcome.1.toOption.getD [] })

inductive Step (source : Nat → Uuid) (run : RedisRun) : RedisRun → Prop
  | operate (operation : OutboxOperation) (now : Nat) (forward : run.clock ≤ now)
      (made : ∀ delivery ∈ operation.delivery, delivery ∈ run.issued) :
      Step source run (run.operate operation now)
  | acquire (worker : String) (limit lease now : Nat) (forward : run.clock ≤ now) :
      Step source run (run.acquire source worker limit lease now).2

abbrev Reachable (source : Nat → Uuid) : RedisRun → RedisRun → Prop :=
  Relation.ReflTransGen (Step source)

def Genuine (redis : RedisOutbox) (delivery : OutboxDelivery) : Prop :=
  redis.leaseInfo[delivery.event.id]? = some (RedisOutbox.owner delivery) →
    redis.events[delivery.event.id]? = some delivery.event ∧
    redis.attempts[delivery.event.id]? = some delivery.attempt ∧ delivery.attempt ≤ u32Max

structure Invariant (source : Nat → Uuid) (run : RedisRun) : Prop where
  corresponds : ∃ memory, Corresponds run.clock run.redis memory
  drawn : ∀ delivery ∈ run.issued, ∃ index < run.drawn, delivery.token = source index
  workers : ∀ delivery ∈ run.issued, validateLease delivery.worker 1 1 = .ok ()
  genuine : ∀ delivery ∈ run.issued, Genuine run.redis delivery

theorem invariant_start (source : Nat → Uuid) (clock : Nat) :
    Invariant source (start clock) := by
  refine ⟨⟨.new, fun id => ?_⟩, ?_, ?_, ?_⟩
  · have redisSlot : (start clock).redis.slot id =
        ⟨none, none, none, none, none, none, none, none⟩ := by
      simp [start, RedisOutbox.new, RedisOutbox.slot]
    have memorySlot : MemoryOutbox.new.slot id = ⟨none, none, none⟩ := by
      simp [MemoryOutbox.new, MemoryOutbox.slot]
    rw [redisSlot]
    exact .unknown
  all_goals
    intro delivery member
    cases member

theorem operate_agree {issued : List OutboxDelivery} (corresponds : Corresponds now redis memory)
    (workers : ∀ delivery ∈ issued, validateLease delivery.worker 1 1 = .ok ())
    (genuine : ∀ delivery ∈ issued, Genuine redis delivery) {operation : OutboxOperation}
    (made : ∀ delivery ∈ operation.delivery, delivery ∈ issued) :
    Agree now redis memory (operation.onRedis now) (operation.onMemory now) := by
  cases operation with
  | append event => exact corresponds.append event
  | ack delivery => exact corresponds.ack delivery
  | renew delivery lease =>
    exact corresponds.renew delivery lease (workers delivery (made delivery rfl))
  | retry delivery availableAt reason =>
    exact corresponds.retry delivery availableAt reason
      (fun owned => (genuine delivery (made delivery rfl) owned).1)
  | deadLetter delivery reason =>
    exact corresponds.deadLetter delivery reason (genuine delivery (made delivery rfl))
  | replayDeadLetter id availableAt => exact corresponds.replayDeadLetter id availableAt

def Kept (before after : RedisOutbox) : Prop :=
  ∀ (id : Uuid) (holder : String × Uuid), after.leaseInfo[id]? = some holder →
    before.leaseInfo[id]? = some holder ∧ after.events[id]? = before.events[id]? ∧
    after.attempts[id]? = before.attempts[id]?

theorem Kept.refl (redis : RedisOutbox) : Kept redis redis :=
  fun _ _ held => ⟨held, rfl, rfl⟩

theorem Kept.genuine {before after : RedisOutbox} (kept : Kept before after)
    (genuine : Genuine before delivery) : Genuine after delivery := by
  intro owned
  obtain ⟨ownedBefore, sameEvent, sameAttempts⟩ := kept _ _ owned
  rw [sameEvent, sameAttempts]
  exact genuine ownedBefore

theorem kept_of_frame {before after : RedisOutbox} (id : Uuid)
    (others : ∀ other, id ≠ other → after.slot other = before.slot other)
    (free : after.leaseInfo[id]? = none) : Kept before after := by
  intro other holder held
  by_cases same : id = other
  · subst other
    exact absurd (free.symm.trans held) (by simp)
  · have slots := others other same
    exact ⟨(congrArg RedisSlot.holder slots).symm.trans held, congrArg RedisSlot.event slots,
      congrArg RedisSlot.attempts slots⟩

theorem onLease_kept {check : Except Error Unit} {change : RedisOutbox → RedisOutbox}
    (kept : Kept redis (change redis)) :
    Kept redis ((RedisOutbox.onLease check delivery now change).call redis).2 := by
  rcases RedisOutbox.onLease_cases redis check delivery now change with
    ⟨_, _, failed⟩ | ⟨_, _, done⟩
  · rw [failed]
    exact Kept.refl redis
  · rw [done]
    exact kept

theorem append_kept (corresponds : Corresponds now redis memory) (event : OutboxEvent) :
    Kept redis ((RedisOutbox.append event).call redis).2 := by
  simp only [RedisOutbox.append, call_bind, call_liftExcept, call_get]
  cases event.validate with
  | error => exact Kept.refl redis
  | ok =>
    have known : redis.dedup[event.id]? = (redis.slot event.id).dedup := rfl
    rcases (corresponds event.id).existing with ⟨slot, _⟩ | ⟨original, _, present, _, _⟩
    · simp only [known, slot, call_bind, call_pure, event.sameIdentity_refl]
      refine kept_of_frame event.id ?_ (congrArg RedisSlot.holder slot)
      intro other different
      simp [RedisOutbox.slot, getElem?_insert_ite, different]
    · simp only [known, present, call_bind, call_pure]
      split <;> exact Kept.refl redis

theorem operate_kept (corresponds : Corresponds now redis memory) (operation : OutboxOperation) :
    Kept redis ((operation.onRedis now).call redis).2 := by
  cases operation with
  | append event => exact append_kept corresponds event
  | ack delivery =>
    refine onLease_kept (kept_of_frame delivery.event.id ?_ (by simp))
    intro other different
    simp [RedisOutbox.slot, getElem?_erase_ite, different]
  | renew => exact onLease_kept (fun _ _ held => ⟨held, rfl, rfl⟩)
  | retry delivery | deadLetter delivery =>
    refine onLease_kept (kept_of_frame delivery.event.id ?_ (by simp))
    intro other different
    simp [RedisOutbox.slot, getElem?_erase_ite, getElem?_insert_ite, different]
  | replayDeadLetter id =>
    simp only [OutboxOperation.onRedis, RedisOutbox.replayDeadLetter, call_bind, call_get]
    cases redis.dead[id]? with
    | none => exact Kept.refl redis
    | some =>
      refine kept_of_frame id ?_ (by simp)
      intro other different
      simp [RedisOutbox.slot, getElem?_erase_ite, getElem?_insert_ite, different]

theorem Invariant.operate {run : RedisRun} (invariant : Invariant source run)
    {operation : OutboxOperation} (forward : run.clock ≤ now)
    (made : ∀ delivery ∈ operation.delivery, delivery ∈ run.issued) :
    Invariant source (run.operate operation now) := by
  obtain ⟨memory, corresponds⟩ := invariant.corresponds
  have now_ := corresponds.later forward
  refine ⟨⟨_, (operate_agree now_ invariant.workers invariant.genuine made).2⟩, invariant.drawn,
    invariant.workers, ?_⟩
  intro delivery member
  exact (operate_kept now_ operation).genuine (invariant.genuine delivery member)

theorem mem_of_mapM_ok {α β : Type} {convert : α → Except Error β} {values : List α}
    {results : List β} (converted : values.mapM convert = .ok results) :
    ∀ result ∈ results, ∃ value ∈ values, convert value = .ok result := by
  induction values generalizing results with
  | nil =>
    simp only [mapM_nil, pure, Except.pure, Except.ok.injEq] at converted
    subst results
    exact nofun
  | cons value rest ih =>
    rw [mapM_cons] at converted
    cases first : convert value with
    | error => simp [first, bind, Except.bind] at converted
    | ok =>
      cases others : rest.mapM convert with
      | error => simp [first, others, bind, Except.bind] at converted
      | ok =>
        simp only [first, others, bind, Except.bind, pure, Except.pure,
          Except.ok.injEq] at converted
        subst results
        intro found member
        rcases mem_cons.mp member with rfl | later
        · exact ⟨value, mem_cons_self, first⟩
        · obtain ⟨origin, belongs, same⟩ := ih others found later
          exact ⟨origin, mem_cons_of_mem _ belongs, same⟩

theorem mapM_ok {α β : Type} {convert : α → Except Error β} {result : α → β} {values : List α}
    (converts : ∀ value ∈ values, convert value = .ok (result value)) :
    values.mapM convert = .ok (values.map result) := by
  induction values with
  | nil => rfl
  | cons value _ ih =>
    rw [mapM_cons, converts value mem_cons_self,
      ih (fun other member => converts other (mem_cons_of_mem _ member))]
    rfl

theorem parsed_delivery {worker : String} {token : Uuid} {leaseUntil : Nat}
    {values : List (Uuid × OutboxEvent × Nat)} (member : delivery ∈ (values.mapM
      (RedisOutbox.parseDelivery worker token leaseUntil)).toOption.getD []) :
    ∃ claimed ∈ values, claimed.2.2 ≤ u32Max ∧
      delivery = { event := claimed.2.1, attempt := claimed.2.2, worker, token, leaseUntil } := by
  cases parsed : values.mapM (RedisOutbox.parseDelivery worker token leaseUntil) with
  | error => simp [parsed, Except.toOption] at member
  | ok deliveries =>
    simp only [parsed] at member
    obtain ⟨claimed, belongs, read⟩ := mem_of_mapM_ok parsed delivery member
    simp only [RedisOutbox.parseDelivery] at read
    split at read
    · rename_i small
      exact ⟨claimed, belongs, small, (Except.ok.inj read).symm⟩
    · cases read

theorem Invariant.acquire (injective : Function.Injective source) {run : RedisRun}
    (invariant : Invariant source run) (forward : run.clock ≤ now) (worker : String)
    (limit lease : Nat) : Invariant source (run.acquire source worker limit lease now).2 := by
  obtain ⟨memory, corresponds⟩ := invariant.corresponds
  have now_ := corresponds.later forward
  have earlier (delivery : OutboxDelivery) (member : delivery ∈ run.issued) :
      ∃ index < run.drawn + 1, delivery.token = source index := by
    obtain ⟨index, below, same⟩ := invariant.drawn delivery member
    exact ⟨index, Nat.lt_succ_of_lt below, same⟩
  cases valid : validateLease worker limit lease with
  | error error =>
    have failed : (RedisOutbox.acquire worker limit lease (source run.drawn) now).call
        run.redis = (.error error, run.redis) := by
      simp only [RedisOutbox.acquire, call_bind, call_liftExcept, valid]
    simp only [RedisRun.acquire, failed, Except.toOption, Option.getD_none, append_nil]
    exact ⟨⟨memory, now_⟩, earlier, invariant.workers, invariant.genuine⟩
  | ok =>
    obtain ⟨picked, values, after, called, acquired⟩ :=
      now_.acquire valid (source run.drawn)
    simp only [RedisRun.acquire, called]
    refine ⟨⟨_, acquired.corresponds⟩, ?_, ?_, ?_⟩
    · intro delivery member
      rcases mem_append.mp member with old | new
      · exact earlier delivery old
      · obtain ⟨claimed, _, _, rfl⟩ := parsed_delivery new
        exact ⟨run.drawn, Nat.lt_succ_self _, rfl⟩
    · intro delivery member
      rcases mem_append.mp member with old | new
      · exact invariant.workers delivery old
      · obtain ⟨claimed, _, _, rfl⟩ := parsed_delivery new
        rw [validateLease_ok_iff] at valid ⊢
        exact ⟨valid.1, valid.2.1, by decide, by decide, by decide⟩
    · intro delivery member owned
      rcases mem_append.mp member with old | new
      · by_cases chosen : delivery.event.id ∈ picked
        · have taken := (acquired.claimed _ chosen).1.symm.trans owned
          simp only [RedisOutbox.owner, Option.some.injEq, Prod.mk.injEq] at taken
          obtain ⟨index, below, same⟩ := invariant.drawn delivery old
          have equal : run.drawn = index := injective (taken.2.trans same)
          omega
        · obtain ⟨ownedBefore, sameAttempts⟩ := acquired.kept _ chosen _ owned
          rw [acquired.events, sameAttempts]
          exact invariant.genuine delivery old ownedBefore
      · obtain ⟨claimed, belongs, small, rfl⟩ := parsed_delivery new
        obtain ⟨stored, counted⟩ := acquired.values claimed belongs
        have named := (now_ _).event_named stored
        have chosen : claimed.1 ∈ picked :=
          acquired.order ▸ mem_map_of_mem belongs
        obtain ⟨_, attempts⟩ := acquired.claimed _ chosen
        simp only [named]
        exact ⟨(acquired.events _).trans stored, by rw [attempts, counted], small⟩

theorem Reachable.invariant (injective : Function.Injective source) {before after : RedisRun}
    (run : Reachable source before after) (initial : Invariant source before) :
    Invariant source after := by
  induction run with
  | refl => exact initial
  | tail _ step ih =>
    cases step with
    | operate _ _ forward made => exact ih.operate forward made
    | acquire worker limit lease _ forward =>
      exact ih.acquire injective forward worker limit lease

section Refinement

variable {source : Nat → Uuid} {run : RedisRun}
variable {now : Nat} {memory : MemoryOutbox}

structure Keys (redis : RedisOutbox) (id : Uuid) : Prop where
  union : id ∈ redis.events ↔ id ∈ redis.available ∨ id ∈ redis.leases
  disjoint : ¬(id ∈ redis.available ∧ id ∈ redis.leases)
  info : id ∈ redis.leaseInfo ↔ id ∈ redis.leases
  dead : ¬(id ∈ redis.dead ∧ id ∈ redis.events)

theorem keys_of_corresponds {redis : RedisOutbox} (corresponds : Corresponds now redis memory)
    (id : Uuid) : Keys redis id := by
  have slots := corresponds id
  have events : redis.events[id]? = (redis.slot id).event := rfl
  have available : redis.available[id]? = (redis.slot id).available := rfl
  have leases : redis.leases[id]? = (redis.slot id).lease := rfl
  have info : redis.leaseInfo[id]? = (redis.slot id).holder := rfl
  have dead : redis.dead[id]? = (redis.slot id).dead := rfl
  generalize redis.slot id = redisSlot at slots events available leases info dead
  generalize memory.slot id = memorySlot at slots
  refine ⟨?_, ?_, ?_, ?_⟩
  all_goals
    simp only [Std.ExtTreeMap.mem_iff_isSome_getElem?, events, available, leases, info, dead]
    cases slots <;> simp

/-- In every state that calls can lead to, the keys fit together, calls other
than `acquire` agree with the in-memory store, and `acquire` delivers as many
eligible events as it may while their attempt numbers fit 32 bits. -/
theorem redis_refines_memory (injective : Function.Injective source) {clock : Nat}
    (reached : Reachable source (start clock) run) :
    (∀ id, Keys run.redis id) ∧ (∃ memory, Corresponds run.clock run.redis memory) ∧
      ∀ memory, Corresponds run.clock run.redis memory →
        (∀ id ∈ run.redis.dedup, id ∉ run.redis.events → id ∉ run.redis.dead →
          id ∈ memory.completed) ∧
        ∀ now, run.clock ≤ now →
          (∀ operation : OutboxOperation, (∀ delivery ∈ operation.delivery, delivery ∈ run.issued) →
            Agree now run.redis memory (operation.onRedis now) (operation.onMemory now)) ∧
          ∀ worker limit lease, validateLease worker limit lease = .ok () →
            (∀ id ∈ run.redis.eligible now, run.redis.attempts[id]?.getD 0 < u32Max) →
            ∃ deliveries, (run.acquire source worker limit lease now).1 = .ok deliveries ∧
              deliveries.length = min limit (run.redis.eligible now).length ∧
              (deliveries.map (·.event.id)).Nodup ∧
              (∀ delivery ∈ deliveries, delivery.event.id ∈ run.redis.eligible now ∧
                run.redis.events[delivery.event.id]? = some delivery.event ∧
                delivery.attempt = run.redis.attempts[delivery.event.id]?.getD 0 + 1) ∧
              Corresponds now (run.acquire source worker limit lease now).2.redis
                (MemoryOutbox.issue (fun _ => source run.drawn) worker (now + lease)
                  (deliveries.map (·.event.id)) 0 memory).2 := by
  have invariant := reached.invariant injective (invariant_start source clock)
  obtain ⟨known, corresponding⟩ := invariant.corresponds
  refine ⟨keys_of_corresponds corresponding, ⟨known, corresponding⟩, ?_⟩
  intro memory corresponds
  refine ⟨?_, fun now forward => ⟨?_, ?_⟩⟩
  · intro id member inactive alive
    rw [Std.ExtTreeMap.mem_iff_isSome_getElem?] at *
    exact (corresponds id).completed_of member inactive alive
  · intro operation made
    exact operate_agree (corresponds.later forward) invariant.workers invariant.genuine made
  · intro worker limit lease valid small
    have now_ := corresponds.later forward
    obtain ⟨picked, values, after, called, acquired⟩ := now_.acquire valid (source run.drawn)
    let delivery (claimed : Uuid × OutboxEvent × Nat) : OutboxDelivery :=
      { event := claimed.2.1, attempt := claimed.2.2, worker, token := source run.drawn
        leaseUntil := now + lease }
    have chosen : ∀ claimed ∈ values, claimed.1 ∈ picked := fun claimed member =>
      acquired.order ▸ mem_map_of_mem member
    have parsed : values.mapM (RedisOutbox.parseDelivery worker (source run.drawn) (now + lease)) =
        .ok (values.map delivery) := by
      refine mapM_ok (fun claimed member => ?_)
      obtain ⟨_, counted⟩ := acquired.values claimed member
      have bound := small claimed.1 (acquired.eligible _ (chosen claimed member))
      rw [RedisOutbox.parseDelivery, if_pos (by omega)]
    have ids : (values.map delivery).map (·.event.id) = picked := by
      rw [map_map, ← acquired.order]
      refine map_congr_left (fun claimed member => ?_)
      exact (now_ _).event_named (acquired.values claimed member).1
    refine ⟨values.map delivery, ?_, ?_, ?_, ?_, ?_⟩
    · simp only [RedisRun.acquire, called, parsed]
    · rw [← acquired.count, ← ids]
      simp
    · rw [ids]
      exact acquired.distinct
    · intro made member
      obtain ⟨claimed, belongs, rfl⟩ := mem_map.mp member
      obtain ⟨stored, counted⟩ := acquired.values claimed belongs
      have named := (now_ _).event_named stored
      simp only [delivery, named]
      exact ⟨acquired.eligible _ (chosen claimed belongs), stored, counted⟩
    · simp only [RedisRun.acquire, called, ids]
      exact acquired.corresponds

end Refinement

section Exhausted

def orderEvent : OutboxEvent where
  id := 1
  topic := "order"
  key := ""
  traceId := ""
  payload := []
  headers := []
  createdAt := 0
  availableAt := 0

def expired : RedisRun :=
  (((start 0).operate (.append orderEvent) 0).acquire id "worker" 1 10 0).2

theorem expired_reachable : Reachable id (start 0) expired :=
  (Relation.ReflTransGen.single (Step.operate (.append orderEvent) 0 le_rfl
    nofun)).tail (Step.acquire "worker" 1 10 0 le_rfl)

theorem expired_acquire : expired.redis.eligible 10 = [1] ∧
    ∃ deliveries, (expired.acquire id "other" 5 10 10).1 = .ok deliveries ∧
      deliveries.length = 1 ∧ ∀ delivery ∈ deliveries, delivery.attempt = 2 := by
  have eligible : expired.redis.eligible 10 = [1] := by decide +kernel
  have attempts : expired.redis.attempts[1]?.getD 0 = 1 := by decide +kernel
  obtain ⟨_, ⟨memory, corresponds⟩, refines⟩ :=
    redis_refines_memory Function.injective_id expired_reachable
  obtain ⟨deliveries, acquired, count, _, facts, _⟩ :=
    ((refines memory corresponds).2 10 (by decide +kernel)).2 "other" 5 10 (by decide)
      (by rw [eligible]; decide +kernel)
  rw [eligible] at count facts
  refine ⟨eligible, deliveries, acquired, count, fun delivery member => ?_⟩
  obtain ⟨named, _, counted⟩ := facts delivery member
  rw [counted, mem_singleton.mp named, attempts]

def Alone (run : RedisRun) : Prop :=
  ∀ id, id ∈ run.redis.events ↔ id = 1

theorem eligible_alone {run : RedisRun} (invariant : Invariant id run) (alone : Alone run) :
    ∃ now, run.clock ≤ now ∧ run.redis.eligible now = [1] := by
  obtain ⟨memory, corresponds⟩ := invariant.corresponds
  have keys := keys_of_corresponds corresponds 1
  have present := keys.union.mp ((alone 1).mpr rfl)
  let now := max run.clock (max (run.redis.available[1]?.getD 0) (run.redis.leases[1]?.getD 0))
  refine ⟨now, le_max_left _ _, ?_⟩
  have due : (run.redis.available[1]?.any (· ≤ now) || run.redis.leases[1]?.any (· ≤ now)) := by
    rw [Bool.or_eq_true]
    simp only [Std.ExtTreeMap.mem_iff_isSome_getElem?, Option.isSome_iff_exists] at present
    rcases present with ⟨score, found⟩ | ⟨leaseUntil, found⟩
    · exact .inl (by simp [now, found])
    · exact .inr (by simp [now, found])
  have member : ∀ other, other ∈ run.redis.eligible now ↔ other ∈ [1] := by
    intro other
    rw [RedisOutbox.eligible, mem_filter, Std.ExtTreeMap.mem_keys, alone, mem_singleton]
    constructor
    · exact And.left
    · rintro rfl
      exact ⟨rfl, due⟩
  exact perm_singleton.mp ((perm_ext_iff_of_nodup
    (Std.ExtTreeMap.nodup_keys.sublist filter_sublist) (nodup_singleton 1)).mpr member)

theorem acquire_alone {run : RedisRun} (invariant : Invariant id run) (alone : Alone run) {now :
  Nat}
    (forward : run.clock ≤ now) (eligible : run.redis.eligible now = [1]) :
    Alone (run.acquire id "worker" 1 1 now).2 ∧
      (run.acquire id "worker" 1 1 now).2.redis.attempts[1]?.getD 0 =
        run.redis.attempts[1]?.getD 0 + 1 ∧
      (u32Max ≤ run.redis.attempts[1]?.getD 0 →
        ∃ error, (run.acquire id "worker" 1 1 now).1 = .error error) := by
  obtain ⟨memory, corresponds⟩ := invariant.corresponds
  have valid : validateLease "worker" 1 1 = .ok () := by decide
  obtain ⟨picked, values, after, called, acquired⟩ :=
    (corresponds.later forward).acquire valid run.drawn
  have count := acquired.count
  rw [eligible] at count
  obtain ⟨chosen, rfl⟩ := length_eq_one_iff.mp count
  have first : chosen = 1 := by
    have known := acquired.eligible chosen mem_cons_self
    rwa [eligible, mem_singleton] at known
  subst chosen
  simp only [RedisRun.acquire, id, called]
  refine ⟨?_, ?_, ?_⟩
  · intro other
    rw [← alone other, Std.ExtTreeMap.mem_iff_isSome_getElem?,
      Std.ExtTreeMap.mem_iff_isSome_getElem?]
    simp only [acquired.events]
  · rw [(acquired.claimed 1 mem_cons_self).2, Option.getD_some]
  · intro large
    obtain ⟨claimed, single, named⟩ := map_eq_singleton_iff.mp acquired.order
    have counted := (acquired.values claimed (by simp [single])).2
    rw [named] at counted
    have tooLarge : ¬claimed.2.2 ≤ u32Max := by omega
    refine ⟨.internal "number too large to fit in target type", ?_⟩
    rw [single, mapM_cons, RedisOutbox.parseDelivery, if_neg tooLarge]
    rfl

theorem acquire_repeatedly (count : Nat) : ∃ run, Reachable id (start 0) run ∧ Alone run ∧
    run.redis.attempts[1]?.getD 0 = count := by
  induction count with
  | zero =>
    refine ⟨(start 0).operate (.append orderEvent) 0,
      Relation.ReflTransGen.single (Step.operate (.append orderEvent) 0 le_rfl
        nofun), ?_, by decide +kernel⟩
    have valid : orderEvent.validate = .ok () := by decide
    have stored : ((start 0).operate (.append orderEvent) 0).redis.events =
        (∅ : Std.ExtTreeMap Uuid OutboxEvent).insert 1 orderEvent := by
      simp only [operate, start, RedisOutbox.new]
      rfl
    intro other
    rw [stored, Std.ExtTreeMap.mem_insert, Std.compare_eq_iff_eq, eq_comm]
    simp
  | succ _ ih =>
    obtain ⟨run, reached, alone, counted⟩ := ih
    have invariant := reached.invariant Function.injective_id (invariant_start id 0)
    obtain ⟨now, forward, eligible⟩ := eligible_alone invariant alone
    obtain ⟨stillAlone, more, _⟩ := acquire_alone invariant alone forward eligible
    exact ⟨_, reached.tail (Step.acquire "worker" 1 1 now forward), stillAlone,
      by rw [more, counted]⟩

/-- After 2^32 - 1 deliveries the next acquisition fails, although the event is
eligible. -/
theorem acquire_exhausted : ∃ run, Reachable id (start 0) run ∧
    ∃ now error, run.clock ≤ now ∧ run.redis.eligible now = [1] ∧
      (run.acquire id "worker" 1 1 now).1 = .error error := by
  obtain ⟨run, reached, alone, counted⟩ := acquire_repeatedly u32Max
  have invariant := reached.invariant Function.injective_id (invariant_start id 0)
  obtain ⟨now, forward, eligible⟩ := eligible_alone invariant alone
  obtain ⟨_, _, fails⟩ := acquire_alone invariant alone forward eligible
  obtain ⟨error, failed⟩ := fails (le_of_eq counted.symm)
  exact ⟨run, reached, now, error, forward, eligible, failed⟩

end Exhausted

end RedisRun

end Elura
