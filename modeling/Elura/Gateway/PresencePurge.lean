import Elura.Gateway.PresenceEntries

/-!
The in-memory online directory without what has expired. Dropping it twice is dropping it once,
and a login or a renewal with a fresh lease leaves nothing to drop.
-/

namespace Elura.MemoryOnlineDirectory

open Std (ExtTreeMap)

variable {now : Nat} {directory : MemoryOnlineDirectory} {lease : SessionLease}

def Live (directory : MemoryOnlineDirectory) (now : Nat) (session : Uuid) : Prop :=
  ∃ lease, directory.sessions[session]? = some lease ∧ now < lease.expiresAt

def Mentions (directory : MemoryOnlineDirectory) (session : Uuid) : Prop :=
  (∃ group, session ∈ directory.groups group) ∨ (∃ user, directory.single user = some session) ∨
    ∃ realm, session ∈ directory.capacity realm

section Purge

variable {directory : MemoryOnlineDirectory} {now : Nat}

theorem live_iff_mem_purge {session : Uuid} :
    directory.Live now session ↔ session ∈ (directory.purge now).sessions := by
  rw [← ExtTreeMap.isSome_getElem?_iff_mem, sessions_purge, Live]
  cases directory.sessions[session]? with
  | none | some => simp

theorem Live.mem {session : Uuid} (live : directory.Live now session) :
    session ∈ directory.sessions := by
  obtain ⟨lease, found, _⟩ := live
  rw [← ExtTreeMap.isSome_getElem?_iff_mem, found]
  rfl

theorem live_purge_iff {session : Uuid} :
    (directory.purge now).Live now session ↔ directory.Live now session := by
  constructor
  · intro live
    exact live_iff_mem_purge.mpr live.mem
  · rintro ⟨lease, found, fresh⟩
    refine ⟨lease, ?_, fresh⟩
    rw [sessions_purge, found]
    simp [fresh]

theorem mentions_purge {session : Uuid} (mentioned : (directory.purge now).Mentions session) :
    directory.Live now session := by
  rw [live_iff_mem_purge]
  rcases mentioned with ⟨group, member⟩ | ⟨user, bound⟩ | ⟨realm, member⟩
  · simp only [purge, Finset.mem_filter] at member
    exact member.2
  · exact ((single_purge _ _ _ _).mp bound).2
  · exact ((mem_capacity_purge _ _ _ _).mp member).2

end Purge

section Register

variable {directory : MemoryOnlineDirectory} {lease : SessionLease}
variable {session : Uuid} {mode : DuplicateLoginMode}

theorem mem_register :
    session ∈ (directory.register lease mode).sessions ↔
      lease.sessionId = session ∨ session ∈ directory.sessions := by
  simp [MemoryOnlineDirectory.register]

theorem mem_capacity_register {realm : RealmKey} (placed : session ∈ directory.capacity realm)
    (kept : directory.previous lease ≠ some session) :
    session ∈ (directory.register lease mode).capacity realm := by
  by_cases same : realm = lease.identity.realmKey
  · subst same
    simp only [MemoryOnlineDirectory.register, Function.update_self]
    refine Finset.mem_insert_of_mem ?_
    split
    · rename_i previous _ met
      refine Finset.mem_erase.mpr ⟨?_, placed⟩
      rintro rfl
      exact kept met
    · exact placed
  · simpa [MemoryOnlineDirectory.register, Function.update_of_ne same] using placed

theorem single_register (exclusive : mode ≠ .allowMultiple) (user : PlayerKey) :
    (directory.register lease mode).single user =
      if user = lease.identity.playerKey then some lease.sessionId else directory.single user := by
  cases mode with
  | allowMultiple => exact absurd rfl exclusive
  | rejectNew | kickExisting => exact Function.update_apply _ _ _ _

theorem single_register_cases {user : PlayerKey}
    (bound : (directory.register lease mode).single user = some session) :
    lease.sessionId = session ∧ lease.identity.playerKey = user ∨
      directory.single user = some session := by
  by_cases exclusive : mode = .allowMultiple
  · subst exclusive
    exact .inr bound
  · rw [single_register exclusive] at bound
    split at bound
    · rename_i same
      exact .inl ⟨Option.some.inj bound, same.symm⟩
    · exact .inr bound

theorem capacity_register_cases {realm : RealmKey}
    (placed : session ∈ (directory.register lease mode).capacity realm) :
    lease.sessionId = session ∧ lease.identity.realmKey = realm ∨
      session ∈ directory.capacity realm := by
  simp only [MemoryOnlineDirectory.register, Function.update_apply] at placed
  split at placed
  · rename_i same
    subst same
    rcases Finset.mem_insert.mp placed with own | kept
    · exact .inl ⟨own.symm, rfl⟩
    · right
      split at kept
      · exact Finset.mem_of_mem_erase kept
      · exact kept
  · exact .inr placed

theorem mentions_register (mentioned : (directory.register lease mode).Mentions session) :
    lease.sessionId = session ∨ directory.Mentions session := by
  rcases mentioned with ⟨group, member⟩ | ⟨user, bound⟩ | ⟨realm, placed⟩
  · exact .inr (.inl ⟨group, member⟩)
  · rcases single_register_cases bound with own | older
    · exact .inl own.1
    · exact .inr (.inr (.inl ⟨user, older⟩))
  · rcases capacity_register_cases placed with own | older
    · exact .inl own.1
    · exact .inr (.inr (.inr ⟨realm, older⟩))

end Register

structure Settled (now : Nat) (directory : MemoryOnlineDirectory) : Prop where
  fresh : ∀ (id : Uuid) lease, directory.sessions[id]? = some lease → now < lease.expiresAt
  known : ∀ id, directory.Mentions id → id ∈ directory.sessions

theorem settled_purge (directory : MemoryOnlineDirectory) (now : Nat) :
    Settled now (directory.purge now) where
  fresh := fun id lease found => by
    rw [sessions_purge] at found
    exact of_decide_eq_true (Option.filter_eq_some_iff.mp found).2
  known := fun id mentioned => live_iff_mem_purge.mp (mentions_purge mentioned)

theorem Settled.purge_eq (settled : Settled now directory) : directory.purge now = directory := by
  have sessions : (directory.purge now).sessions = directory.sessions := by
    refine ExtTreeMap.ext_getElem? (fun {id} => ?_)
    rw [sessions_purge]
    cases found : directory.sessions[id]? with
    | none => rfl
    | some lease => simp [settled.fresh id lease found]
  have known : ∀ id, id ∈ (directory.purge now).sessions ↔ id ∈ directory.sessions := by
    intro id
    rw [sessions]
  refine MemoryOnlineDirectory.ext sessions ?_ ?_ ?_
  · funext group
    refine Finset.filter_eq_self.mpr (fun id member => (known id).mpr (settled.known id ?_))
    exact .inl ⟨group, member⟩
  · funext user
    cases bound : directory.single user with
    | none => simp only [purge, bound, Option.filter_none]
    | some id =>
      have live := (known id).mpr (settled.known id (.inr (.inl ⟨user, bound⟩)))
      exact (single_purge _ _ _ _).mpr ⟨bound, live⟩
  · funext realm
    refine Finset.filter_eq_self.mpr (fun id member => (known id).mpr (settled.known id ?_))
    exact .inr (.inr ⟨realm, member⟩)

theorem purge_purge (directory : MemoryOnlineDirectory) {later : Nat} (forward : now ≤ later) :
    (directory.purge now).purge later = directory.purge later := by
  have sessions : ((directory.purge now).purge later).sessions = (directory.purge later).sessions :=
    ExtTreeMap.ext_getElem? (fun {id} => directory.sessions_purge_purge forward id)
  have older (id : Uuid) (member : id ∈ (directory.purge later).sessions) :
      id ∈ (directory.purge now).sessions := by
    rw [← sessions] at member
    exact (live_iff_mem_purge.mpr member).mem
  refine MemoryOnlineDirectory.ext sessions ?_ ?_ ?_
  · funext group
    ext id
    change id ∈ Finset.filter _ (Finset.filter _ _) ↔ id ∈ Finset.filter _ _
    simp only [Finset.mem_filter]
    change (id ∈ directory.groups group ∧ id ∈ (directory.purge now).sessions) ∧
      id ∈ ((directory.purge now).purge later).sessions ↔
      id ∈ directory.groups group ∧ id ∈ (directory.purge later).sessions
    rw [sessions]
    exact ⟨fun both => ⟨both.1.1, both.2⟩, fun both => ⟨⟨both.1, older id both.2⟩, both.2⟩⟩
  · funext user
    ext id
    simp only [single_purge, sessions]
    exact ⟨fun both => ⟨both.1.1, both.2⟩, fun both => ⟨⟨both.1, older id both.2⟩, both.2⟩⟩
  · funext realm
    ext id
    simp only [mem_capacity_purge, sessions]
    exact ⟨fun both => ⟨both.1.1, both.2⟩, fun both => ⟨⟨both.1, older id both.2⟩, both.2⟩⟩

theorem Settled.register (settled : Settled now directory) (fresh : now < lease.expiresAt)
    (mode : DuplicateLoginMode) :
    Settled now (directory.register lease mode) where
  fresh := fun id current found => by
    rw [sessions_register] at found
    split at found
    · cases found
      exact fresh
    · exact settled.fresh id current found
  known := fun id mentioned =>
    mem_register.mpr ((mentions_register mentioned).imp_right (settled.known id))

theorem Settled.renewed (settled : Settled now directory) (fresh : now < lease.expiresAt) :
    Settled now { directory with
      sessions := directory.sessions.insert lease.sessionId lease } where
  fresh := fun id current found => by
    rw [OrderedMap.getElem?_insert_ite] at found
    split at found
    · cases found
      exact fresh
    · exact settled.fresh id current found
  known := fun id mentioned => mem_insert_of_mem (settled.known id mentioned)

theorem unregister_kept {id : Uuid} (present : id ∈ (directory.unregister lease).sessions) :
    (∀ group, id ∈ (directory.unregister lease).groups group ↔ id ∈ directory.groups group) ∧
      (∀ user, (directory.unregister lease).single user = some id ↔
        directory.single user = some id) ∧
      ∀ realm, id ∈ (directory.unregister lease).capacity realm ↔
        id ∈ directory.capacity realm := by
  by_cases owned : directory.sessions[lease.sessionId]?.any (·.gatewayId = lease.gatewayId)
  · have different : id ≠ lease.sessionId := by
      rintro rfl
      rw [unregister, if_pos owned] at present
      simp at present
    refine ⟨fun group => ?_, fun user => directory.single_unregister_of_ne different user,
      fun realm => directory.mem_capacity_unregister_of_ne different realm⟩
    simp only [unregister, if_pos owned, Finset.mem_erase, ne_eq, different, not_false_eq_true,
      true_and]
  · rw [unregister, if_neg owned]
    exact ⟨fun _ => Iff.rfl, fun _ => Iff.rfl, fun _ => Iff.rfl⟩

theorem purge_unregister (directory : MemoryOnlineDirectory) (lease : SessionLease) (now : Nat) :
    ((directory.purge now).unregister lease).purge now = (directory.unregister lease).purge now := by
  have lookup (id : Uuid) : (((directory.purge now).unregister lease).purge now).sessions[id]? =
      ((directory.unregister lease).purge now).sessions[id]? := by
    by_cases own : id = lease.sessionId
    · subst own
      cases found : directory.sessions[lease.sessionId]? with
      | none => simp [sessions_purge, unregister, found]
      | some current =>
        by_cases fresh : now < current.expiresAt
        · by_cases named : current.gatewayId = lease.gatewayId
          all_goals simp [sessions_purge, unregister, found, fresh, named]
        · by_cases named : current.gatewayId = lease.gatewayId
          · simp [sessions_purge, unregister, found, fresh, named, Nat.not_lt.mp fresh]
          · simp [sessions_purge, unregister, found, named]
    · rw [sessions_purge, sessions_purge, sessions_unregister_of_ne _ own,
        sessions_unregister_of_ne _ own, ← sessions_purge, ← sessions_purge,
        purge_purge directory (le_refl now)]
  have sessions : (((directory.purge now).unregister lease).purge now).sessions =
      ((directory.unregister lease).purge now).sessions :=
    ExtTreeMap.ext_getElem? (fun {id} => lookup id)
  have here {id : Uuid} (live : id ∈ ((directory.unregister lease).purge now).sessions) :
      id ∈ (directory.unregister lease).sessions := (live_iff_mem_purge.mpr live).mem
  have there {id : Uuid} (live : id ∈ ((directory.unregister lease).purge now).sessions) :
      id ∈ ((directory.purge now).unregister lease).sessions := by
    rw [← sessions] at live
    exact (live_iff_mem_purge.mpr live).mem
  have alive {id : Uuid} (live : id ∈ ((directory.unregister lease).purge now).sessions) :
      id ∈ (directory.purge now).sessions := by
    have present := there live
    rw [unregister] at present
    split at present
    · exact ExtTreeMap.mem_of_mem_erase present
    · exact present
  refine MemoryOnlineDirectory.ext sessions ?_ ?_ ?_
  · funext group
    ext id
    change id ∈ Finset.filter (· ∈ (((directory.purge now).unregister lease).purge now).sessions) _ ↔
      id ∈ Finset.filter (· ∈ ((directory.unregister lease).purge now).sessions) _
    rw [Finset.mem_filter, Finset.mem_filter, sessions]
    refine and_congr_left (fun live => ?_)
    rw [(unregister_kept (there live)).1, (unregister_kept (here live)).1]
    simp only [purge, Finset.mem_filter]
    exact and_iff_left (alive live)
  · funext user
    ext id
    rw [single_purge, single_purge, sessions]
    refine and_congr_left (fun live => ?_)
    rw [(unregister_kept (there live)).2.1, (unregister_kept (here live)).2.1, single_purge]
    exact and_iff_left (alive live)
  · funext realm
    ext id
    rw [mem_capacity_purge, mem_capacity_purge, sessions]
    refine and_congr_left (fun live => ?_)
    rw [(unregister_kept (there live)).2.2, (unregister_kept (here live)).2.2, mem_capacity_purge]
    exact and_iff_left (alive live)

end Elura.MemoryOnlineDirectory
