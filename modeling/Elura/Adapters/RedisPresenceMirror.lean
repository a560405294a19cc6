import Elura.Adapters.RedisPresence
import Elura.Gateway.PresenceRun

/-!
The Redis directory beside the in-memory one: the keys that have not expired say the same, and the
scripts keep it so, except for a renewal without a place in the realm.
-/

namespace Elura

open Function Option Volatile

open OrderedMap (getElem?_insert_ite getElem?_erase_ite)

open Std (ExtTreeMap)

open MemoryOnlineDirectory
open RedisOnlineDirectory (slots keptSlots renewScript removeScript)

def Lasting (ttl now : Nat) (capacity : Volatile RealmKey (ExtTreeMap Uuid Nat)) : Prop :=
  ∀ realm entry, capacity.find now realm = some entry →
    ∃ expiry, entry.expiresAt = some expiry ∧ expiry ≤ now + ttl ∧
      ∀ (id : Uuid) score, entry.value[id]? = some score → score ≤ expiry

namespace Lasting

variable {ttl now : Nat} {capacity : Volatile RealmKey (ExtTreeMap Uuid Nat)} {realm : RealmKey}
  {change : ExtTreeMap Uuid Nat → ExtTreeMap Uuid Nat}

section

variable (lasting : Lasting ttl now capacity)
include lasting

theorem found {id : Uuid} {score : Nat}
    (member : (capacity.content now realm)[id]? = some score) :
    ∃ expiry, capacity.find now realm = some ⟨capacity.content now realm, some expiry⟩ ∧
      expiry ≤ now + ttl ∧ score ≤ expiry := by
  cases present : capacity.find now realm with
  | none =>
    rw [content_of_not_find present] at member
    exact absurd member (by simp [Container.blank])
  | some entry =>
    have same := content_of_find present
    rw [same] at member
    obtain ⟨expiry, expires, recent, within⟩ := lasting realm entry present
    refine ⟨expiry, ?_, recent, within id score member⟩
    rw [same, ← expires]

theorem shrink
    (fewer : ∀ (id : Uuid) score, (change (capacity.content now realm))[id]? = some score →
      (capacity.content now realm)[id]? = some score) :
    Lasting ttl now (capacity.alter now realm change) := by
  intro other entry present
  rw [find_alter] at present
  split at present
  · split_ifs at present with filled
    cases present
    -- a set that is not empty now had a member before, and with it an expiry
    have nonempty : change (capacity.content now realm) ≠ ∅ :=
      fun empty => filled ((Container.isBlank_iff _).mpr empty)
    obtain ⟨id, score, scored⟩ : ∃ (id : Uuid) (score : Nat),
        (change (capacity.content now realm))[id]? = some score := by
      by_contra none_
      refine nonempty (ExtTreeMap.ext_getElem? (fun {id} => ?_))
      rw [ExtTreeMap.getElem?_empty]
      exact eq_none_iff_forall_ne_some.mpr
        (fun score scored => none_ ⟨id, score, scored⟩)
    obtain ⟨expiry, before, recent, _⟩ := lasting.found (fewer id score scored)
    refine ⟨expiry, by rw [before]; rfl, recent, fun other score scored => ?_⟩
    obtain ⟨same, also, _, within⟩ := lasting.found (fewer other score scored)
    rw [before] at also
    cases also
    exact within
  · exact lasting other entry present

theorem extend (positive : 0 < ttl)
    (within : ∀ (id : Uuid) score, (change (capacity.content now realm))[id]? = some score →
      score ≤ now + ttl) :
    Lasting ttl now ((capacity.alter now realm change).expire now realm (now + ttl)) := by
  intro other entry present
  rw [find_expire (by omega), find_alter, find_alter, if_pos rfl]
    at present
  split at present
  · split at present
    · cases present
    · cases present
      exact ⟨now + ttl, rfl, le_rfl, within⟩
  · exact lasting other entry present

theorem bounded {id : Uuid} {score : Nat}
    (member : (capacity.content now realm)[id]? = some score) : score ≤ now + ttl := by
  obtain ⟨expiry, _, recent, within⟩ := lasting.found member
  exact within.trans recent

end

end Lasting

structure Mirrors (ttl now : Nat) (redis : RedisOnlineDirectory)
    (memory : MemoryOnlineDirectory) : Prop where
  session : ∀ (id : Uuid) entry, redis.sessions.find now id = some entry ↔
    memory.sessions[id]? = some entry.value ∧ entry.expiresAt = some entry.value.expiresAt
  single : ∀ user entry, redis.single.find now user = some entry ↔
    memory.single user = some entry.value ∧
      ∃ lease, memory.sessions[entry.value]? = some lease ∧ entry.expiresAt = some lease.expiresAt
  slot : ∀ realm (id : Uuid) score, (redis.slots now realm)[id]? = some score ∧ now < score ↔
    id ∈ memory.capacity realm ∧
      ∃ lease, memory.sessions[id]? = some lease ∧ lease.expiresAt = score
  lasting : Lasting ttl now redis.capacity

namespace Mirrors

variable {ttl now : Nat} {redis : RedisOnlineDirectory} {memory : MemoryOnlineDirectory}

theorem new (ttl now : Nat) : Mirrors ttl now .new .new where
  session := fun id entry => by
    simp [RedisOnlineDirectory.new, MemoryOnlineDirectory.new, Volatile.find]
  single := fun user entry => by
    simp [RedisOnlineDirectory.new, MemoryOnlineDirectory.new, Volatile.find]
  slot := fun realm id score => by
    have blank : RedisOnlineDirectory.new.slots now realm = ∅ := rfl
    simp [blank, MemoryOnlineDirectory.new]
  lasting := nofun

theorem slots_later (mirrors : Mirrors ttl now redis memory) {later : Nat} (forward : now ≤ later)
    {realm : RealmKey} {id : Uuid} {score : Nat} (fresh : later < score) :
    (redis.slots later realm)[id]? = some score ↔ (redis.slots now realm)[id]? = some score := by
  constructor
  · intro found
    cases present : redis.capacity.find later realm with
    | none =>
      rw [slots, content_of_not_find present] at found
      exact absurd found (by simp [Container.blank])
    | some =>
      have older := ((find_later forward).mp present).1
      rw [slots, content_of_find present] at found
      rwa [slots, content_of_find older]
  · intro found
    obtain ⟨expiry, present, _, within⟩ := mirrors.lasting.found found
    have alive : Timed.alive ⟨redis.capacity.content now realm, some expiry⟩ later = true :=
      decide_eq_true (Nat.lt_of_lt_of_le fresh within)
    have still := (find_later forward).mpr ⟨present, alive⟩
    rwa [slots, content_of_find still]

theorem alive_iff {α : Type} {entry : Timed α} {expiry later : Nat}
    (expires : entry.expiresAt = some expiry) : entry.alive later = true ↔ later < expiry := by
  rw [Timed.alive, expires]
  exact decide_eq_true_iff

theorem sessions_purge_iff {later : Nat} {id : Uuid} {lease : SessionLease} :
    (memory.purge later).sessions[id]? = some lease ↔
      memory.sessions[id]? = some lease ∧ later < lease.expiresAt := by
  rw [sessions_purge, filter_eq_some_iff, decide_eq_true_eq]

theorem elapse (mirrors : Mirrors ttl now redis memory) {later : Nat} (forward : now ≤ later) :
    Mirrors ttl later redis (memory.purge later) := by
  refine ⟨?_, ?_, ?_, ?_⟩
  · intro id entry
    rw [find_later forward, mirrors.session, sessions_purge_iff]
    constructor
    · rintro ⟨⟨found, expires⟩, alive⟩
      exact ⟨⟨found, (alive_iff expires).mp alive⟩, expires⟩
    · rintro ⟨⟨found, fresh⟩, expires⟩
      exact ⟨⟨found, expires⟩, (alive_iff expires).mpr fresh⟩
  · intro user entry
    rw [find_later forward, mirrors.single, single_purge, ← live_iff_mem_purge]
    constructor
    · rintro ⟨⟨bound, lease, found, expires⟩, alive⟩
      have fresh := (alive_iff expires).mp alive
      exact ⟨⟨bound, lease, found, fresh⟩, lease, sessions_purge_iff.mpr ⟨found, fresh⟩, expires⟩
    · rintro ⟨⟨bound, _⟩, lease, live, expires⟩
      obtain ⟨found, fresh⟩ := sessions_purge_iff.mp live
      exact ⟨⟨bound, lease, found, expires⟩, (alive_iff expires).mpr fresh⟩
  · intro realm id score
    rw [mem_capacity_purge, ← live_iff_mem_purge]
    constructor
    · rintro ⟨found, fresh⟩
      rw [mirrors.slots_later forward fresh] at found
      obtain ⟨placed, lease, known, rfl⟩ :=
        (mirrors.slot realm id score).mp ⟨found, Nat.lt_of_le_of_lt forward fresh⟩
      exact ⟨⟨placed, lease, known, fresh⟩, lease, sessions_purge_iff.mpr ⟨known, fresh⟩, rfl⟩
    · rintro ⟨⟨placed, _⟩, lease, live, rfl⟩
      obtain ⟨known, fresh⟩ := sessions_purge_iff.mp live
      refine ⟨(mirrors.slots_later forward fresh).mpr ?_, fresh⟩
      exact ((mirrors.slot realm id _).mpr ⟨placed, lease, known, rfl⟩).1
  · intro realm entry found
    obtain ⟨expiry, expires, recent, within⟩ :=
      mirrors.lasting realm entry ((find_later forward).mp found).1
    exact ⟨expiry, expires, recent.trans (by omega), within⟩

theorem lease_of_mentions (settled : Settled now memory) {id : Uuid} (named : memory.Mentions id) :
    ∃ lease, memory.sessions[id]? = some lease :=
  isSome_iff_exists.mp (ExtTreeMap.isSome_getElem?_iff_mem.mpr (settled.known id named))

section Acquire

variable {lease : SessionLease} {mode : DuplicateLoginMode}

theorem get_single (mirrors : Mirrors ttl now redis memory) (settled : Settled now memory)
    (user : PlayerKey) : redis.single.get now user = memory.single user := by
  ext id
  rw [get_eq_some_iff]
  constructor
  · rintro ⟨entry, found, rfl⟩
    exact ((mirrors.single user entry).mp found).1
  · intro bound
    obtain ⟨lease, known⟩ := lease_of_mentions settled (.inr (.inl ⟨user, bound⟩))
    exact ⟨⟨id, some lease.expiresAt⟩, (mirrors.single user _).mpr ⟨bound, lease, known, rfl⟩, rfl⟩

theorem session_eq (mirrors : Mirrors ttl now redis memory) (id : Uuid) :
    redis.session now id = memory.sessions[id]? := by
  ext lease
  rw [RedisOnlineDirectory.session, get_eq_some_iff]
  constructor
  · rintro ⟨entry, found, rfl⟩
    exact ((mirrors.session id entry).mp found).1
  · intro known
    exact ⟨⟨lease, some lease.expiresAt⟩, (mirrors.session id _).mpr ⟨known, rfl⟩, rfl⟩

theorem findPrevious_eq (mirrors : Mirrors ttl now redis memory) (settled : Settled now memory) :
    redis.findPrevious lease now = (memory.previous lease, redis) := by
  unfold RedisOnlineDirectory.findPrevious
  rw [mirrors.get_single settled]
  split
  · rename_i none_
    rw [previous, none_]
  · rename_i other met
    have bound := (filter_eq_some_iff.mp met).1
    obtain ⟨current, known⟩ := lease_of_mentions settled (.inr (.inl ⟨_, bound⟩))
    have present := (mirrors.session other ⟨current, some current.expiresAt⟩).mpr ⟨known, rfl⟩
    rw [present, previous, met]
    rfl

def Clean (now : Nat) (redis : RedisOnlineDirectory) (realm : RealmKey) : Prop :=
  ∀ (id : Uuid) score, (redis.slots now realm)[id]? = some score → now < score

theorem slots_dropExpired (realm other : RealmKey) :
    (redis.dropExpired realm now).slots now other =
      if other = realm then (redis.slots now realm).filter (fun _ score => now < score)
      else redis.slots now other :=
  Volatile.content_alter

theorem filter_fresh_iff {slots : ExtTreeMap Uuid Nat} {id : Uuid} {score : Nat} :
    (slots.filter (fun _ score => now < score))[id]? = some score ↔
      slots[id]? = some score ∧ now < score := by
  cases found : slots[id]? with
  | none => simp [found]
  | some value =>
    by_cases fresh : now < value
    · simp only [ExtTreeMap.getElem?_filter, found, pfilter_some, fresh, decide_true,
        if_true, some.injEq]
      exact ⟨fun same => ⟨same, same ▸ fresh⟩, fun both => both.1⟩
    · simp only [ExtTreeMap.getElem?_filter, found, pfilter_some, fresh, some.injEq]
      exact ⟨nofun, fun both => absurd (both.1 ▸ both.2) fresh⟩

theorem dropExpired (mirrors : Mirrors ttl now redis memory) (realm : RealmKey) :
    Mirrors ttl now (redis.dropExpired realm now) memory where
  session := mirrors.session
  single := mirrors.single
  slot := fun other id score => by
    rw [slots_dropExpired, ← mirrors.slot]
    split
    · rename_i same
      rw [filter_fresh_iff, same]
      exact ⟨fun both => both.1, fun both => ⟨both, both.2⟩⟩
    · rfl
  lasting := mirrors.lasting.shrink (fun _ _ found => (filter_fresh_iff.mp found).1)

theorem clean_dropExpired (realm : RealmKey) :
    Clean now (redis.dropExpired realm now) realm := by
  intro id score found
  rw [slots_dropExpired, if_pos rfl] at found
  exact (filter_fresh_iff.mp found).2

section

variable (mirrors : Mirrors ttl now redis memory) (settled : Settled now memory)
include mirrors settled

theorem mem_slots_iff
    {realm : RealmKey} (clean : Clean now redis realm) (id : Uuid) :
    id ∈ redis.slots now realm ↔ id ∈ memory.capacity realm := by
  rw [← ExtTreeMap.isSome_getElem?_iff_mem, isSome_iff_exists]
  constructor
  · rintro ⟨score, found⟩
    exact ((mirrors.slot realm id score).mp ⟨found, clean id score found⟩).1
  · intro placed
    obtain ⟨lease, known⟩ := lease_of_mentions settled (.inr (.inr ⟨realm, placed⟩))
    exact ⟨_, ((mirrors.slot realm id _).mpr ⟨placed, lease, known, rfl⟩).1⟩

theorem size_slots
    {realm : RealmKey} (clean : Clean now redis realm) :
    (redis.slots now realm).size = (memory.capacity realm).card := by
  have same : (redis.slots now realm).keys.toFinset = memory.capacity realm := by
    ext id
    rw [List.mem_toFinset, ExtTreeMap.mem_keys, mirrors.mem_slots_iff settled clean]
  rw [← same, List.toFinset_card_of_nodup ExtTreeMap.nodup_keys, ExtTreeMap.length_keys]

theorem transfersSlot_eq
    (clean : Clean now redis lease.identity.realmKey) :
    redis.transfersSlot lease mode (memory.previous lease) now = memory.transfersSlot lease mode := by
  unfold RedisOnlineDirectory.transfersSlot transfersSlot
  congr 2
  funext id
  exact decide_eq_decide.mpr (mirrors.mem_slots_iff settled clean id)

theorem full_eq
    (clean : Clean now redis lease.identity.realmKey) {maximum : Option Nat}
    (bounded : maximum ≠ some 0) :
    redis.full lease mode (maximum.getD 0) (memory.previous lease) now =
      memory.full lease { duplicateLogin := mode, maxSessions := maximum } := by
  unfold RedisOnlineDirectory.full full
  simp only [mirrors.transfersSlot_eq settled clean, mirrors.size_slots settled clean,
    mirrors.mem_slots_iff settled clean]
  cases maximum with
  | none => simp
  | some limit =>
    have positive : 0 < limit := Nat.pos_of_ne_zero (fun zero => bounded (by rw [zero]))
    simp [positive]

end

end Acquire

section Writes

variable {setting : PresenceSetting} {accepted : PlayerKey → Option Uuid} {lease : SessionLease}
variable {mode : DuplicateLoginMode} {previous : Option Uuid}

theorem single_own {entry : Timed Uuid} (expires : lease.expiresAt = now + ttl) :
    some ⟨lease.sessionId, some (now + ttl)⟩ = some entry ↔
      some lease.sessionId = some entry.value ∧
        ∃ current, (if lease.sessionId = entry.value then some lease
          else memory.sessions[entry.value]?) = some current ∧
            entry.expiresAt = some current.expiresAt := by
  constructor
  · intro same
    cases same
    exact ⟨rfl, lease, if_pos rfl, by rw [expires]⟩
  · rintro ⟨same, current, found, until_⟩
    rw [if_pos (some.inj same)] at found
    cases found
    rw [some.inj same, ← expires, ← until_]

theorem fresh_iff {score : Nat} (positive : 0 < ttl) (expires : lease.expiresAt = now + ttl) :
    some (now + ttl) = some score ∧ now < score ↔
      ∃ current, some lease = some current ∧ current.expiresAt = score := by
  constructor
  · rintro ⟨same, _⟩
    exact ⟨lease, rfl, expires.trans (some.inj same)⟩
  · rintro ⟨current, found, rfl⟩
    cases found
    exact ⟨by rw [expires], by omega⟩

theorem getElem?_keptSlots (transfers : Bool) (previous : Option Uuid)
    (slots : ExtTreeMap Uuid Nat) (id : Uuid) :
    (keptSlots transfers previous slots)[id]? =
      if transfers = true ∧ previous = some id then none else slots[id]? := by
  unfold keptSlots
  split
  · rename_i other
    rw [getElem?_erase_ite]
    simp
  · rename_i kept
    rw [if_neg]
    rintro ⟨rfl, rfl⟩
    exact kept id rfl rfl

theorem slots_register (positive : 0 < ttl) (realm : RealmKey) :
    (redis.register ttl lease mode previous now).slots now realm =
      if realm = lease.identity.realmKey then
        (keptSlots (redis.transfersSlot lease mode previous now) previous
          (redis.slots now lease.identity.realmKey)).insert lease.sessionId (now + ttl)
      else redis.slots now realm := by
  simp only [slots, RedisOnlineDirectory.register,
    content_expire (Nat.lt_add_of_pos_right positive), content_alter]

theorem clean_register (clean : Clean now redis lease.identity.realmKey) (positive : 0 < ttl) :
    Clean now (redis.register ttl lease mode previous now) lease.identity.realmKey := by
  intro id score found
  rw [slots_register positive, if_pos rfl, getElem?_insert_ite] at found
  split at found
  · cases found
    omega
  · rw [getElem?_keptSlots] at found
    split_ifs at found
    exact clean id score found

theorem mem_capacity_register_iff {id : Uuid} (other : id ≠ lease.sessionId) :
    id ∈ (memory.register lease mode).capacity lease.identity.realmKey ↔
      ¬(memory.transfersSlot lease mode = true ∧ memory.previous lease = some id) ∧
        id ∈ memory.capacity lease.identity.realmKey := by
  simp only [MemoryOnlineDirectory.register, update_self, Finset.mem_insert, other,
    false_or]
  split
  · rename_i previous transfers met
    simp [transfers, met, eq_comm]
  · rename_i kept
    refine (and_iff_right ?_).symm
    rintro ⟨transfers, met⟩
    exact kept id transfers met

theorem slots_renewScript (positive : 0 < ttl) (realm : RealmKey) :
    (redis.renewScript ttl lease now).slots now realm =
      if realm = lease.identity.realmKey then
        (redis.slots now lease.identity.realmKey).insert lease.sessionId (now + ttl)
      else redis.slots now realm := by
  simp only [slots, renewScript,
    content_expire (Nat.lt_add_of_pos_right positive), content_alter]

theorem slots_removeScript (id : Uuid) (identity : Identity) (joined : Finset String)
    (realm : RealmKey) : (redis.removeScript id identity joined now).slots now realm =
      if realm = identity.realmKey then (redis.slots now identity.realmKey).erase id
      else redis.slots now realm := by
  simp only [slots, removeScript, content_alter]

variable (mirrors : Mirrors ttl now redis memory)
include mirrors

theorem session_put (positive : 0 < ttl) (expires : lease.expiresAt = now + ttl) (id : Uuid)
    (entry : Timed SessionLease) :
    (redis.sessions.put lease.sessionId lease (now + ttl)).find now id = some entry ↔
      (if lease.sessionId = id then some lease else memory.sessions[id]?) = some entry.value ∧
        entry.expiresAt = some entry.value.expiresAt := by
  rw [find_put (by omega)]
  by_cases own : id = lease.sessionId
  · rw [if_pos own, if_pos own.symm, ← expires]
    constructor
    · intro same
      cases same
      exact ⟨rfl, rfl⟩
    · rintro ⟨same, until_⟩
      cases same
      rw [← until_]
  · rw [if_neg own, if_neg (Ne.symm own)]
    exact mirrors.session id entry

variable (registered : Registered setting memory accepted)
  (named : lease.identity = setting.identity lease.sessionId)
include registered named

/-- What happens to the session's lease does not concern the other realms. -/
theorem slot_elsewhere {realm : RealmKey} (elsewhere : realm ≠ lease.identity.realmKey)
    (change : Option SessionLease) (id : Uuid) (score : Nat) :
    (redis.slots now realm)[id]? = some score ∧ now < score ↔
      id ∈ memory.capacity realm ∧
        ∃ current, (if lease.sessionId = id then change else memory.sessions[id]?) =
          some current ∧ current.expiresAt = score := by
  rw [mirrors.slot]
  refine and_congr_right (fun placed => ?_)
  rw [if_neg]
  rintro rfl
  exact elsewhere (by rw [named, registered.placed realm _ placed])

theorem single_elsewhere {user : PlayerKey}
    (elsewhere : memory.single user = some lease.sessionId → user ≠ lease.identity.playerKey)
    (change : Option SessionLease) (entry : Timed Uuid) :
    redis.single.find now user = some entry ↔
      memory.single user = some entry.value ∧
        ∃ current, (if lease.sessionId = entry.value then change
          else memory.sessions[entry.value]?) = some current ∧
            entry.expiresAt = some current.expiresAt := by
  rw [mirrors.single]
  refine and_congr_right (fun bound => ?_)
  rw [if_neg]
  intro own
  rw [← own] at bound
  exact elsewhere bound (by rw [named, registered.holder user _ bound])

variable (settled : Settled now memory)
include settled

theorem remove
    (owned : memory.sessions[lease.sessionId]?.any (·.gatewayId = lease.gatewayId)) :
    Mirrors ttl now (redis.remove lease.sessionId now) (memory.unregister lease) := by
  obtain ⟨current, known⟩ : ∃ current, memory.sessions[lease.sessionId]? = some current := by
    cases found : memory.sessions[lease.sessionId]? with
    | none => simp [found] at owned
    | some current => exact ⟨current, rfl⟩
  have identity : current.identity = lease.identity :=
    (registered.owner _ current known).trans named.symm
  have left (id : Uuid) : (memory.unregister lease).sessions[id]? =
      if lease.sessionId = id then none else memory.sessions[id]? := by
    rw [MemoryOnlineDirectory.unregister, if_pos owned, getElem?_erase_ite]
  have removed : redis.remove lease.sessionId now = redis.removeScript lease.sessionId lease.identity
      (redis.memberships.content now lease.sessionId) now := by
    simp only [RedisOnlineDirectory.remove, mirrors.session_eq, known, identity]
  refine ⟨?_, ?_, ?_, ?_⟩
  · intro id entry
    rw [left, removed]
    simp only [removeScript, find_delete]
    by_cases own : id = lease.sessionId
    · rw [if_pos own, if_pos own.symm]
      simp
    · rw [if_neg own, if_neg (Ne.symm own)]
      exact mirrors.session id entry
  · intro user entry
    rw [left, removed]
    simp only [removeScript, mirrors.get_single settled,
      MemoryOnlineDirectory.unregister, if_pos owned]
    split
    · rw [find_delete]
      split
      · rename_i own
        rw [own]
        simp
      · rename_i other
        rw [update_of_ne other]
        exact mirrors.single_elsewhere registered named (fun _ => other) none entry
    · rename_i unbound
      refine mirrors.single_elsewhere registered named (fun bound own => ?_) none entry
      rw [own] at bound
      exact unbound bound
  · intro realm id score
    rw [removed, slots_removeScript, left]
    simp only [MemoryOnlineDirectory.unregister, if_pos owned]
    by_cases here : realm = lease.identity.realmKey
    · subst here
      rw [if_pos rfl, getElem?_erase_ite, update_self, Finset.mem_erase]
      by_cases own : lease.sessionId = id
      · simp [own]
      · rw [if_neg own, if_neg own, and_iff_right (Ne.symm own)]
        exact mirrors.slot _ id score
    · rw [if_neg here, update_of_ne here]
      exact mirrors.slot_elsewhere registered named here none id score
  · rw [removed]
    refine @Lasting.shrink ttl now redis.capacity lease.identity.realmKey
      (·.erase lease.sessionId) mirrors.lasting (fun id score found => ?_)
    rw [getElem?_erase_ite] at found
    split_ifs at found
    exact found

variable (positive : 0 < ttl) (expires : lease.expiresAt = now + ttl)
include positive expires

theorem register (clean : Clean now redis lease.identity.realmKey) :
    Mirrors ttl now (redis.register ttl lease setting.mode (memory.previous lease) now)
      (memory.register lease setting.mode) := by
  have slots := @slots_register ttl now redis lease setting.mode (memory.previous lease) positive
  simp only [mirrors.transfersSlot_eq settled clean] at slots
  refine ⟨?_, ?_, ?_, ?_⟩
  · intro id entry
    rw [sessions_register]
    exact mirrors.session_put positive expires id entry
  · intro user entry
    rw [sessions_register]
    by_cases exclusive : setting.mode = .allowMultiple
    · simp only [exclusive]
      refine mirrors.single_elsewhere registered named (fun bound => ?_) _ entry
      rw [registered.unbound exclusive] at bound
      cases bound
    · have written : (redis.register ttl lease setting.mode (memory.previous lease) now).single =
          redis.single.put lease.identity.playerKey lease.sessionId (now + ttl) := by
        cases mode : setting.mode with
        | allowMultiple => exact absurd mode exclusive
        | rejectNew | kickExisting => rfl
      rw [written, single_register exclusive, find_put (by omega)]
      split
      · exact single_own expires
      · rename_i other
        exact mirrors.single_elsewhere registered named (fun _ => other) _ entry
  · intro realm id score
    rw [slots, sessions_register]
    by_cases here : realm = lease.identity.realmKey
    · subst here
      rw [if_pos rfl, getElem?_insert_ite]
      by_cases own : lease.sessionId = id
      · subst own
        rw [if_pos rfl, if_pos rfl]
        have placed : lease.sessionId ∈
            (memory.register lease setting.mode).capacity lease.identity.realmKey := by
          simp [MemoryOnlineDirectory.register]
        rw [and_iff_right placed]
        exact fresh_iff positive expires
      · rw [if_neg own, if_neg own, mem_capacity_register_iff (Ne.symm own), getElem?_keptSlots,
          and_assoc, ← mirrors.slot]
        split
        · rename_i taken
          simp [taken]
        · rename_i kept
          rw [and_iff_right kept]
    · have same : (memory.register lease setting.mode).capacity realm = memory.capacity realm :=
        update_of_ne here _ _
      rw [if_neg here, same]
      exact mirrors.slot_elsewhere registered named here _ id score
  · refine mirrors.lasting.extend positive ?_
    intro id score found
    rw [getElem?_insert_ite] at found
    split at found
    · cases found
      exact le_rfl
    · rw [getElem?_keptSlots] at found
      split_ifs at found
      exact mirrors.lasting.bounded found

theorem renew (placed : lease.sessionId ∈ memory.capacity lease.identity.realmKey) :
    Mirrors ttl now (redis.renewScript ttl lease now)
      { memory with sessions := memory.sessions.insert lease.sessionId lease } := by
  refine ⟨?_, ?_, ?_, ?_⟩
  · intro id entry
    rw [getElem?_insert_ite]
    exact mirrors.session_put positive expires id entry
  · intro user entry
    rw [getElem?_insert_ite]
    simp only [renewScript, mirrors.get_single settled]
    split
    · rename_i bound
      rw [find_expire (by omega)]
      split
      · rename_i own
        obtain ⟨current, known⟩ := lease_of_mentions settled (.inr (.inr ⟨_, placed⟩))
        have present := (mirrors.single lease.identity.playerKey
          ⟨lease.sessionId, some current.expiresAt⟩).mpr ⟨bound, current, known, rfl⟩
        rw [present, own, bound]
        exact single_own expires
      · rename_i other
        exact mirrors.single_elsewhere registered named (fun _ => other) _ entry
    · rename_i unbound
      refine mirrors.single_elsewhere registered named (fun bound own => ?_) _ entry
      rw [own] at bound
      exact unbound bound
  · intro realm id score
    rw [slots_renewScript positive, getElem?_insert_ite]
    by_cases here : realm = lease.identity.realmKey
    · subst here
      rw [if_pos rfl, getElem?_insert_ite]
      by_cases own : lease.sessionId = id
      · subst own
        rw [if_pos rfl, if_pos rfl, and_iff_right placed]
        exact fresh_iff positive expires
      · rw [if_neg own, if_neg own]
        exact mirrors.slot _ id score
    · rw [if_neg here]
      exact mirrors.slot_elsewhere registered named here _ id score
  · refine mirrors.lasting.extend positive ?_
    intro id score found
    rw [getElem?_insert_ite] at found
    split at found
    · cases found
      exact le_rfl
    · exact mirrors.lasting.bounded found

end Writes

end Mirrors

end Elura
