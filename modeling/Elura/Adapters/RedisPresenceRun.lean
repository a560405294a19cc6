import Elura.Adapters.RedisPresenceMirror

/-!
Runs of both directories side by side, under one policy. Logins are answered alike as long as no
session renews after its place in the realm has gone to another session.
-/

namespace Elura

open Fallible

open Std (ExtTreeMap)
open MemoryOnlineDirectory

structure RedisPresenceWorld where
  redis : RedisOnlineDirectory
  memory : PresenceWorld

namespace RedisPresenceWorld

def start (clock : Nat) : RedisPresenceWorld where
  redis := .new
  memory := .start clock

inductive Action
  | elapse (later : Nat)
  | acquire (lease : SessionLease)
  | renew (lease : SessionLease)
  | unregister (lease : SessionLease)

inductive Step (setting : PresenceSetting) (ttl : Nat) (world : RedisPresenceWorld) :
    Action → RedisPresenceWorld → Prop
  | elapse (later : Nat) (forward : world.memory.clock ≤ later) :
      Step setting ttl world (.elapse later)
        { world with memory := { world.memory with clock := later } }
  | acquire (lease : SessionLease) (named : lease.identity = setting.identity lease.sessionId)
      (expires : lease.expiresAt = world.memory.clock + ttl) :
      Step setting ttl world (.acquire lease)
        { redis := ((RedisOnlineDirectory.acquire ttl lease (setting.policy lease)
            world.memory.clock).call world.redis).2
          memory := world.memory.perform (.acquire lease (setting.policy lease)) }
  | renew (lease : SessionLease) (named : lease.identity = setting.identity lease.sessionId)
      (expires : lease.expiresAt = world.memory.clock + ttl) :
      Step setting ttl world (.renew lease)
        { redis := ((RedisOnlineDirectory.renew ttl lease world.memory.clock).call world.redis).2
          memory := world.memory.perform (.renew lease) }
  | unregister (lease : SessionLease)
      (named : lease.identity = setting.identity lease.sessionId) :
      Step setting ttl world (.unregister lease)
        { redis := world.redis.unregister lease world.memory.clock
          memory := world.memory.perform (.unregister lease) }

def KeepsSlot (world : RedisPresenceWorld) : Action → Prop
  | .renew lease => world.memory.directory.Live world.memory.clock lease.sessionId →
      lease.sessionId ∈ world.memory.directory.capacity lease.identity.realmKey
  | _ => True

section Acquire

variable {ttl now : Nat} {redis : RedisOnlineDirectory} {memory : MemoryOnlineDirectory}
  {lease : SessionLease} {policy : OnlineAdmissionPolicy}

theorem with_expiry (expires : lease.expiresAt = now + ttl) :
    { lease with expiresAt := now + ttl } = lease := by
  rw [← expires]

theorem acquire_redis (mirrors : Mirrors ttl now redis memory) (settled : Settled now memory)
    (identity : lease.identity.validate = .ok ()) (bounded : policy.maxSessions ≠ some 0)
    (expires : lease.expiresAt = now + ttl) :
    (RedisOnlineDirectory.acquire ttl lease policy now).call redis =
      if policy.duplicateLogin = .rejectNew ∧ (memory.previous lease).isSome then
        (.ok .duplicate, redis)
      else if memory.full lease policy then
        (.ok .realmFull, redis.dropExpired lease.identity.realmKey now)
      else
        (.ok (.accepted (if policy.duplicateLogin = .kickExisting then memory.previous lease
          else none)), (redis.dropExpired lease.identity.realmKey now).register ttl lease
            policy.duplicateLogin (memory.previous lease) now) := by
  have room : (redis.dropExpired lease.identity.realmKey now).full lease policy.duplicateLogin
      (policy.maxSessions.getD 0) (memory.previous lease) now = memory.full lease policy :=
    (mirrors.dropExpired _).full_eq settled (Mirrors.clean_dropExpired _) bounded
  simp only [RedisOnlineDirectory.acquire, call_bind, call_liftExcept, identity,
    OnlineAdmissionPolicy.new, if_neg bounded, call_get, call_set, with_expiry expires,
      RedisOnlineDirectory.acquireScript, mirrors.findPrevious_eq settled, room]
  split
  · rfl
  · split
    · rfl
    · rfl

theorem acquire_refused
    (unusable : ¬(lease.identity.validate = .ok () ∧ policy.maxSessions ≠ some 0)) :
    ∃ error, (RedisOnlineDirectory.acquire ttl lease policy now).call redis =
        (.error error, redis) ∧
      (MemoryOnlineDirectory.acquire lease policy now).call memory = (.error error, memory) := by
  cases identity : lease.identity.validate with
  | error error =>
    refine ⟨error, ?_, ?_⟩
    · simp only [RedisOnlineDirectory.acquire, call_bind, call_liftExcept, identity]
    · simp only [MemoryOnlineDirectory.acquire, call_bind, call_liftExcept, identity]
  | ok =>
    have zero : policy.maxSessions = some 0 := by
      by_contra bounded
      exact unusable ⟨identity, bounded⟩
    refine ⟨.invalidConfig "online realm capacity must be positive", ?_, ?_⟩
    · simp only [RedisOnlineDirectory.acquire, call_bind, call_liftExcept,
        identity, OnlineAdmissionPolicy.new, if_pos zero]
    · simp only [MemoryOnlineDirectory.acquire, call_bind, call_liftExcept,
        identity, OnlineAdmissionPolicy.new, if_pos zero]

end Acquire

variable {setting : PresenceSetting} {ttl : Nat} {world after : RedisPresenceWorld}
  {action : Action}

/-- The sorted sets count no more members than the realms admit, expired ones
included. -/
def Bounded (setting : PresenceSetting) (now : Nat) (redis : RedisOnlineDirectory) : Prop :=
  ∀ realm maximum, setting.maximum realm = some maximum → (redis.slots now realm).size ≤ maximum

structure Sound (setting : PresenceSetting) (ttl : Nat) (world : RedisPresenceWorld) : Prop where
  mirrors : Mirrors ttl world.memory.clock world.redis
    (world.memory.directory.purge world.memory.clock)
  registered : Registered setting world.memory.directory world.memory.accepted
  bounded : Bounded setting world.memory.clock world.redis

namespace Sound

variable {lease : SessionLease} {redis : RedisOnlineDirectory} {memory : MemoryOnlineDirectory}

theorem start (setting : PresenceSetting) (ttl clock : Nat) : Sound setting ttl (start clock) where
  mirrors := by
    have settled : Settled clock .new :=
      ⟨fun id lease found => by simp [MemoryOnlineDirectory.new] at found, fun id mentioned => by
        simp [Mentions, MemoryOnlineDirectory.new] at mentioned⟩
    change Mirrors ttl clock .new (MemoryOnlineDirectory.new.purge clock)
    rw [settled.purge_eq]
    exact Mirrors.new ttl clock
  registered := Registered.new setting
  bounded := fun _ _ _ => Nat.zero_le _

theorem bounded_of_clean {now : Nat} {changed : RedisOnlineDirectory}
    {accepted : PlayerKey → Option Uuid} {own : RealmKey} (bounded : Bounded setting now redis)
    (mirrors : Mirrors ttl now changed memory) (settled : Settled now memory)
    (registered : Registered setting memory accepted) (clean : Mirrors.Clean now changed own)
    (others : ∀ realm, realm ≠ own → changed.slots now realm = redis.slots now realm) :
    Bounded setting now changed := by
  intro realm maximum limited
  by_cases same : realm = own
  · subst same
    rw [mirrors.size_slots settled clean]
    exact registered.bound realm maximum limited
  · rw [others realm same]
    exact bounded realm maximum limited

theorem size_remove_le (redis : RedisOnlineDirectory) (id : Uuid) (now : Nat) (realm : RealmKey) :
    ((redis.remove id now).slots now realm).size ≤ (redis.slots now realm).size := by
  unfold RedisOnlineDirectory.remove
  split
  · exact le_rfl
  · rw [Mirrors.slots_removeScript]
    split
    · rename_i here
      rw [here]
      exact ExtTreeMap.size_erase_le
    · exact le_rfl

section

variable (sound : Sound setting ttl world)
include sound

section

variable (expires : lease.expiresAt = world.memory.clock + ttl)
include expires

section

variable
  (stored : ((RedisOnlineDirectory.acquire ttl lease (setting.policy lease)
    world.memory.clock).call world.redis).2 = redis)
  (kept : ((MemoryOnlineDirectory.acquire lease (setting.policy lease)
    world.memory.clock).call world.memory.directory).2 = memory)
include stored kept

/-- What a login leaves behind: it changes nothing, drops what has expired, or is
registered on both sides. -/
theorem acquire_outcomes :
    (redis = world.redis ∧ (memory = world.memory.directory ∨
        memory = world.memory.directory.purge world.memory.clock)) ∨
      (redis = world.redis.dropExpired lease.identity.realmKey world.memory.clock ∧
        memory = world.memory.directory.purge world.memory.clock) ∨
      (redis = (world.redis.dropExpired lease.identity.realmKey world.memory.clock).register ttl
          lease setting.mode ((world.memory.directory.purge world.memory.clock).previous lease)
          world.memory.clock ∧
        memory = (world.memory.directory.purge world.memory.clock).register lease setting.mode) := by
  by_cases usable : lease.identity.validate = .ok () ∧ (setting.policy lease).maxSessions ≠ some 0
  · rw [acquire_redis sound.mirrors (settled_purge _ _) usable.1 usable.2 expires] at stored
    rw [acquire_eq usable.1 usable.2] at kept
    split at kept
    · rename_i met
      rw [if_pos met] at stored
      exact .inl ⟨stored.symm, .inr kept.symm⟩
    · rename_i unmet
      rw [if_neg unmet] at stored
      split at kept
      · rename_i full
        rw [if_pos full] at stored
        exact .inr (.inl ⟨stored.symm, kept.symm⟩)
      · rename_i room
        rw [if_neg room] at stored
        exact .inr (.inr ⟨stored.symm, kept.symm⟩)
  · obtain ⟨error, refused, also⟩ := @acquire_refused ttl world.memory.clock world.redis
      world.memory.directory lease (setting.policy lease) usable
    rw [refused] at stored
    rw [also] at kept
    exact .inl ⟨stored.symm, .inl kept.symm⟩

theorem mirrors_acquire (positive : 0 < ttl)
    (named : lease.identity = setting.identity lease.sessionId) {accepted : PlayerKey → Option Uuid}
    (registered : Registered setting memory accepted) :
    Mirrors ttl world.memory.clock redis (memory.purge world.memory.clock) ∧
      Bounded setting world.memory.clock redis := by
  have settled := settled_purge world.memory.directory world.memory.clock
  have purged := sound.registered.purge world.memory.clock
  have dropped := sound.mirrors.dropExpired lease.identity.realmKey
  have clean : Mirrors.Clean world.memory.clock
      (world.redis.dropExpired lease.identity.realmKey world.memory.clock)
      lease.identity.realmKey := Mirrors.clean_dropExpired _
  have others (realm : RealmKey) (other : realm ≠ lease.identity.realmKey) :
      (world.redis.dropExpired lease.identity.realmKey world.memory.clock).slots
        world.memory.clock realm = world.redis.slots world.memory.clock realm := by
    rw [Mirrors.slots_dropExpired, if_neg other]
  rcases sound.acquire_outcomes expires stored kept with
    ⟨rfl, rfl | rfl⟩ | ⟨rfl, rfl⟩ | ⟨rfl, rfl⟩
  · exact ⟨sound.mirrors, sound.bounded⟩
  · rw [settled.purge_eq]
    exact ⟨sound.mirrors, sound.bounded⟩
  · rw [settled.purge_eq]
    exact ⟨dropped, bounded_of_clean sound.bounded dropped settled purged clean others⟩
  · have fresh : world.memory.clock < lease.expiresAt := by omega
    have written := dropped.register purged named settled positive expires clean
    have afresh := settled.register fresh setting.mode
    rw [afresh.purge_eq]
    have clear := @Mirrors.clean_register ttl _ _ lease setting.mode
      ((world.memory.directory.purge world.memory.clock).previous lease) clean positive
    refine ⟨written, bounded_of_clean sound.bounded written afresh registered clear ?_⟩
    · intro realm other
      rw [Mirrors.slots_register positive, if_neg other, others realm other]

end

theorem acquire (positive : 0 < ttl) (named : lease.identity = setting.identity lease.sessionId) :
    Sound setting ttl
      { redis := ((RedisOnlineDirectory.acquire ttl lease (setting.policy lease)
          world.memory.clock).call world.redis).2
        memory := world.memory.perform (.acquire lease (setting.policy lease)) } := by
  have registered := PresenceWorld.Step.registered
    (.perform (.acquire lease (setting.policy lease)) ⟨named, rfl⟩) sound.registered
  obtain ⟨mirrors, bounded⟩ :=
    sound.mirrors_acquire expires rfl rfl positive named registered
  exact ⟨mirrors, registered, bounded⟩

theorem renew (positive : 0 < ttl) (named : lease.identity = setting.identity lease.sessionId)
    (keeps : KeepsSlot world (.renew lease)) :
    Sound setting ttl
      { redis := ((RedisOnlineDirectory.renew ttl lease world.memory.clock).call world.redis).2
        memory := world.memory.perform (.renew lease) } := by
  have registered := PresenceWorld.Step.registered (.perform (.renew lease) named)
    sound.registered
  have settled := settled_purge world.memory.directory world.memory.clock
  have purged := sound.registered.purge world.memory.clock
  suffices held : Mirrors ttl world.memory.clock
        ((RedisOnlineDirectory.renew ttl lease world.memory.clock).call world.redis).2
        (((MemoryOnlineDirectory.renew lease world.memory.clock).call
          world.memory.directory).2.purge world.memory.clock) ∧
      Bounded setting world.memory.clock
        ((RedisOnlineDirectory.renew ttl lease world.memory.clock).call world.redis).2 from
    ⟨held.1, registered, held.2⟩
  simp only [RedisOnlineDirectory.renew, MemoryOnlineDirectory.renew, call_bind,
    call_get, call_ite, call_liftExcept, call_set,
    call_throw, call_modify, sound.mirrors.session_eq, with_expiry expires]
  cases lease.identity.validate with
  | error =>
    simp only
    split
    all_goals exact ⟨sound.mirrors, sound.bounded⟩
  | ok value =>
    simp only
    split
    · rename_i owned
      obtain ⟨current, known⟩ : ∃ current, (world.memory.directory.purge
          world.memory.clock).sessions[lease.sessionId]? = some current := by
        cases found : (world.memory.directory.purge world.memory.clock).sessions[lease.sessionId]? with
        | none => simp [found] at owned
        | some current => exact ⟨current, rfl⟩
      have present : lease.sessionId ∈
          (world.memory.directory.purge world.memory.clock).sessions := by
        rw [← ExtTreeMap.isSome_getElem?_iff_mem, known]
        rfl
      have placed := (mem_capacity_purge world.memory.directory world.memory.clock _ _).mpr
        ⟨keeps (live_iff_mem_purge.mpr present), present⟩
      have fresh : world.memory.clock < lease.expiresAt := by omega
      rw [(settled.renewed fresh).purge_eq]
      refine ⟨sound.mirrors.renew purged named settled positive expires placed, ?_⟩
      intro realm maximum limited
      rw [Mirrors.slots_renewScript positive]
      split
      · rename_i here
        have member : lease.sessionId ∈
            world.redis.slots world.memory.clock lease.identity.realmKey := by
          rw [← ExtTreeMap.isSome_getElem?_iff_mem,
            ((sound.mirrors.slot _ lease.sessionId _).mpr ⟨placed, current, known, rfl⟩).1]
          rfl
        rw [ExtTreeMap.size_insert, if_pos (ExtTreeMap.mem_iff_contains.mp member), ← here]
        exact sound.bounded realm maximum limited
      · exact sound.bounded realm maximum limited
    · rw [settled.purge_eq]
      exact ⟨sound.mirrors, sound.bounded⟩

end

theorem unregister (named : lease.identity = setting.identity lease.sessionId) :
    Sound setting ttl
      { redis := world.redis.unregister lease world.memory.clock
        memory := world.memory.perform (.unregister lease) } := by
  have settled := settled_purge world.memory.directory world.memory.clock
  have purged := sound.registered.purge world.memory.clock
  refine ⟨?_, sound.registered.unregister named, ?_⟩
  · change Mirrors ttl world.memory.clock (world.redis.unregister lease world.memory.clock)
      ((world.memory.directory.unregister lease).purge world.memory.clock)
    rw [← purge_unregister, RedisOnlineDirectory.unregister, sound.mirrors.session_eq]
    split
    · rename_i owned
      exact (sound.mirrors.remove purged named settled owned).elapse le_rfl
    · rename_i foreign
      rw [MemoryOnlineDirectory.unregister, if_neg foreign]
      exact sound.mirrors.elapse le_rfl
  · intro realm maximum limited
    refine le_trans ?_ (sound.bounded realm maximum limited)
    change ((world.redis.unregister lease world.memory.clock).slots world.memory.clock realm).size ≤ _
    unfold RedisOnlineDirectory.unregister
    split
    · exact size_remove_le world.redis lease.sessionId world.memory.clock realm
    · exact le_rfl

theorem elapse {later : Nat} (forward : world.memory.clock ≤ later) :
    Sound setting ttl { world with memory := { world.memory with clock := later } } := by
  refine ⟨?_, sound.registered, ?_⟩
  · have later := sound.mirrors.elapse forward
    rw [purge_purge _ forward] at later
    exact later
  · intro realm maximum limited
    refine le_trans ?_ (sound.bounded realm maximum limited)
    change (world.redis.slots later realm).size ≤ (world.redis.slots world.memory.clock realm).size
    cases present : world.redis.capacity.find later realm with
    | none =>
      rw [RedisOnlineDirectory.slots, Volatile.content_of_not_find present]
      exact Nat.zero_le _
    | some =>
      have older := ((Volatile.find_later forward).mp present).1
      rw [RedisOnlineDirectory.slots, RedisOnlineDirectory.slots,
        Volatile.content_of_find present, Volatile.content_of_find older]

theorem step (positive : 0 < ttl) (taken : Step setting ttl world action after)
    (keeps : KeepsSlot world action) :
    Sound setting ttl after := by
  cases taken with
  | elapse _ forward => exact sound.elapse forward
  | acquire _ named expires => exact sound.acquire expires positive named
  | renew _ named expires => exact sound.renew expires positive named keeps
  | unregister _ named => exact sound.unregister named

end

end Sound

/-- Where every session that renews has kept its place, each login gets from Redis
the answer of the in-memory directory, and no realm has more places than allowed. -/
theorem redis_admits_as_memory {clock : Nat} (positive : 0 < ttl)
    (run : RunWhen KeepsSlot (Step setting ttl) (start clock) world) :
    (∀ lease : SessionLease, lease.expiresAt = world.memory.clock + ttl →
      ((RedisOnlineDirectory.acquire ttl lease (setting.policy lease)
          world.memory.clock).call world.redis).1 =
        ((MemoryOnlineDirectory.acquire lease (setting.policy lease)
          world.memory.clock).call world.memory.directory).1) ∧
    ∀ realm maximum, setting.maximum realm = some maximum →
      (world.redis.slots world.memory.clock realm).size ≤ maximum := by
  have sound : Sound setting ttl world :=
    run.invariant (fun _ _ _ keeps step sound => sound.step positive step keeps)
      (Sound.start setting ttl clock)
  refine ⟨fun lease expires => ?_, sound.bounded⟩
  by_cases usable : lease.identity.validate = .ok () ∧ (setting.policy lease).maxSessions ≠ some 0
  · rw [acquire_redis sound.mirrors (settled_purge _ _) usable.1 usable.2 expires,
      acquire_eq usable.1 usable.2]
    split
    · rfl
    · split
      · rfl
      · rfl
  · obtain ⟨error, refused, also⟩ := @acquire_refused ttl world.memory.clock world.redis
      world.memory.directory lease (setting.policy lease) usable
    rw [refused, also]

section Sample

def rivalIdentity (session : Uuid) : Identity :=
  if session = 3 then { loginIdentity with userId := 3 } else loginIdentity

def rivalSetting : PresenceSetting where
  mode := .kickExisting
  maximum := fun _ => some 1
  identity := rivalIdentity

def rivalLease (sessionId : Uuid) : SessionLease where
  sessionId
  gatewayId := "gateway"
  identity := rivalIdentity sessionId
  expiresAt := 30

def enter (session : Uuid) (world : RedisPresenceWorld) : RedisPresenceWorld where
  redis := ((RedisOnlineDirectory.acquire 30 (rivalLease session)
    (rivalSetting.policy (rivalLease session)) world.memory.clock).call world.redis).2
  memory := world.memory.perform
    (.acquire (rivalLease session) (rivalSetting.policy (rivalLease session)))

def takenOver : RedisPresenceWorld :=
  enter 2 (enter 1 (start 0))

def renewed (world : RedisPresenceWorld) : RedisPresenceWorld where
  redis := ((RedisOnlineDirectory.renew 30 (rivalLease 1) world.memory.clock).call world.redis).2
  memory := world.memory.perform (.renew (rivalLease 1))

def vacated (world : RedisPresenceWorld) : RedisPresenceWorld where
  redis := world.redis.unregister (rivalLease 2) world.memory.clock
  memory := world.memory.perform (.unregister (rivalLease 2))

theorem takenOver_runs {allowed : RedisPresenceWorld → Action → Prop}
    (permitted : ∀ world lease, allowed world (.acquire lease)) :
    RunWhen allowed (Step rivalSetting 30) (start 0) takenOver :=
  ((RunWhen.refl (start 0)).take (.acquire (rivalLease 1) rfl rfl) (permitted _ _)).take
    (.acquire (rivalLease 2) rfl rfl) (permitted _ _)

theorem takenOver_admits : RunWhen KeepsSlot (Step rivalSetting 30) (start 0) takenOver ∧
    (takenOver.redis.slots 0 loginIdentity.realmKey).size ≤ 1 := by
  have run : RunWhen KeepsSlot (Step rivalSetting 30) (start 0) takenOver :=
    takenOver_runs (fun _ _ => trivial)
  exact ⟨run, (redis_admits_as_memory (by decide) run).2 _ 1 rfl⟩

/-- Session 1 renews after session 2 has taken its login and its place. Redis now
counts two places of one, and goes on counting session 1 when session 2 has left. -/
theorem displaced_renewal_diverges :
    RunWhen (fun _ _ => True) (Step rivalSetting 30) (start 0) (renewed takenOver) ∧
    ((renewed takenOver).redis.slots 0 loginIdentity.realmKey).size = 2 ∧
    RunWhen (fun _ _ => True) (Step rivalSetting 30) (start 0) (vacated (renewed takenOver)) ∧
    ((RedisOnlineDirectory.acquire 30 (rivalLease 3) (rivalSetting.policy (rivalLease 3)) 0).call
      (vacated (renewed takenOver)).redis).1 = .ok .realmFull ∧
    ((MemoryOnlineDirectory.acquire (rivalLease 3) (rivalSetting.policy (rivalLease 3)) 0).call
      (vacated (renewed takenOver)).memory.directory).1 = .ok (.accepted none) := by
  have run : RunWhen (fun _ _ => True) (Step rivalSetting 30) (start 0) (renewed takenOver) :=
    (takenOver_runs (fun _ _ => trivial)).take (.renew (rivalLease 1) rfl rfl) trivial
  have left : RunWhen (fun _ _ => True) (Step rivalSetting 30) (start 0)
      (vacated (renewed takenOver)) := run.take (.unregister (rivalLease 2) rfl) trivial
  refine ⟨run, ?_, left, ?_, ?_⟩
  all_goals decide +kernel

end Sample

end RedisPresenceWorld

end Elura
