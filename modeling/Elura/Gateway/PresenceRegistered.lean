import Elura.Gateway.PresencePurge

/-!
What the in-memory online directory keeps under one admission policy: `single` is the session
accepted last for a user, and no realm has more places taken than it admits.
-/

namespace Elura

open Function Option

open Std (ExtTreeMap)

structure PresenceSetting where
  mode : DuplicateLoginMode
  maximum : RealmKey → Option Nat
  identity : Uuid → Identity

namespace PresenceSetting

def policy (setting : PresenceSetting) (lease : SessionLease) : OnlineAdmissionPolicy where
  duplicateLogin := setting.mode
  maxSessions := setting.maximum lease.identity.realmKey

def Permits (setting : PresenceSetting) : DirectoryOperation → Prop
  | .acquire lease policy => lease.identity = setting.identity lease.sessionId ∧
      policy = setting.policy lease
  | .renew lease | .unregister lease => lease.identity = setting.identity lease.sessionId
  | .trackGroup .. | .query => True

end PresenceSetting

namespace MemoryOnlineDirectory

/-- `accepted` is the session accepted last for each user. -/
structure Registered (setting : PresenceSetting) (directory : MemoryOnlineDirectory)
    (accepted : PlayerKey → Option Uuid) : Prop where
  owner : ∀ (session : Uuid) lease, directory.sessions[session]? = some lease →
    lease.identity = setting.identity session
  holder : ∀ user session, directory.single user = some session →
    (setting.identity session).playerKey = user
  placed : ∀ realm session, session ∈ directory.capacity realm →
    (setting.identity session).realmKey = realm
  unbound : setting.mode = .allowMultiple → ∀ user, directory.single user = none
  bound : ∀ realm maximum, setting.maximum realm = some maximum →
    (directory.capacity realm).card ≤ maximum
  last : ∀ user session, accepted user = some session →
    (setting.identity session).playerKey = user
  single : setting.mode ≠ .allowMultiple → ∀ user session, directory.single user = some session ↔
    accepted user = some session ∧ session ∈ directory.sessions
  slot : setting.mode ≠ .allowMultiple → ∀ user session, directory.single user = some session →
    session ∈ directory.capacity (setting.identity session).realmKey
  alone : setting.mode = .rejectNew → ∀ session ∈ directory.sessions,
    directory.single (setting.identity session).playerKey = some session

namespace Registered

variable {setting : PresenceSetting} {directory : MemoryOnlineDirectory}
  {accepted : PlayerKey → Option Uuid}

theorem new (setting : PresenceSetting) : Registered setting .new (fun _ => none) where
  owner := fun session lease found => by simp [MemoryOnlineDirectory.new] at found
  holder := nofun
  placed := fun _ _ placed => by simp [MemoryOnlineDirectory.new] at placed
  unbound := fun _ _ => rfl
  bound := fun _ _ _ => Nat.zero_le _
  last := nofun
  single := fun _ user session => by simp [MemoryOnlineDirectory.new]
  slot := fun _ _ _ bound => by simp [MemoryOnlineDirectory.new] at bound
  alone := fun _ session member => by simp [MemoryOnlineDirectory.new] at member

theorem purge (registered : Registered setting directory accepted) (now : Nat) :
    Registered setting (directory.purge now) accepted := by
  have older {session : Uuid} (member : session ∈ (directory.purge now).sessions) :
      session ∈ directory.sessions := (live_iff_mem_purge.mpr member).mem
  refine ⟨?_, ?_, ?_, ?_, ?_, registered.last, ?_, ?_, ?_⟩
  · intro session lease found
    rw [sessions_purge] at found
    exact registered.owner session lease (filter_eq_some_iff.mp found).1
  · exact fun user session bound =>
      registered.holder user session ((single_purge _ _ _ _).mp bound).1
  · exact fun realm session placed =>
      registered.placed realm session ((mem_capacity_purge _ _ _ _).mp placed).1
  · intro multiple user
    simp [MemoryOnlineDirectory.purge, registered.unbound multiple user]
  · intro realm maximum limited
    exact (Finset.card_filter_le _ _).trans (registered.bound realm maximum limited)
  · intro exclusive user session
    rw [single_purge, registered.single exclusive]
    exact ⟨fun both => ⟨both.1.1, both.2⟩, fun both => ⟨⟨both.1, older both.2⟩, both.2⟩⟩
  · intro exclusive user session bound
    obtain ⟨named, live⟩ := (single_purge _ _ _ _).mp bound
    exact (mem_capacity_purge _ _ _ _).mpr ⟨registered.slot exclusive user session named, live⟩
  · intro reject session member
    exact (single_purge _ _ _ _).mpr ⟨registered.alone reject session (older member), member⟩

theorem congr (registered : Registered setting directory accepted)
    {after : MemoryOnlineDirectory}
    (owner : ∀ (session : Uuid) lease, after.sessions[session]? = some lease →
      lease.identity = setting.identity session)
    (same : ∀ session, session ∈ after.sessions ↔ session ∈ directory.sessions)
    (single : after.single = directory.single) (capacity : after.capacity = directory.capacity) :
    Registered setting after accepted where
  owner := owner
  holder := single ▸ registered.holder
  placed := capacity ▸ registered.placed
  unbound := single ▸ registered.unbound
  bound := capacity ▸ registered.bound
  last := registered.last
  single := fun exclusive user session => by
    rw [single, same]
    exact registered.single exclusive user session
  slot := fun exclusive user session bound => by
    rw [single] at bound
    rw [capacity]
    exact registered.slot exclusive user session bound
  alone := fun reject session member => by
    rw [single]
    exact registered.alone reject session ((same session).mp member)

variable {lease : SessionLease}

theorem card_register {mode : DuplicateLoginMode} {maximum : Nat}
    (within : (directory.capacity lease.identity.realmKey).card ≤ maximum)
    (room : directory.full lease { duplicateLogin := mode, maxSessions := some maximum } = false) :
    ((directory.register lease mode).capacity lease.identity.realmKey).card ≤ maximum := by
  simp only [MemoryOnlineDirectory.register, update_self]
  simp only [full, any_some, Bool.and_eq_false_iff, decide_eq_false_iff_not, not_not] at room
  split
  · rename_i previous transfers met
    have placed : previous ∈ directory.capacity lease.identity.realmKey := by
      simp only [transfersSlot, met, any_some, Bool.and_eq_true, decide_eq_true_eq]
        at transfers
      exact transfers.2
    rw [transfers] at room
    have size := Finset.card_erase_of_mem placed
    rcases room with holds | free
    · refine le_trans (Finset.card_le_card ?_) within
      exact Finset.insert_subset holds (Finset.erase_subset _ _)
    · have grown := Finset.card_insert_le lease.sessionId
        ((directory.capacity lease.identity.realmKey).erase previous)
      omega
  · rcases room with holds | free
    · rwa [Finset.insert_eq_of_mem holds]
    · have grown := Finset.card_insert_le lease.sessionId
        (directory.capacity lease.identity.realmKey)
      rename_i transferred
      cases transfers : directory.transfersSlot lease mode with
      | false =>
        rw [transfers, Bool.toNat_false] at free
        omega
      | true =>
        -- a slot is only transferred from a session that was there before
        cases met : directory.previous lease with
        | none => simp [transfersSlot, met] at transfers
        | some previous => exact absurd met (transferred previous transfers)

section

variable (registered : Registered setting directory accepted)
  (named : lease.identity = setting.identity lease.sessionId)
include registered named

theorem register
    (free : setting.mode = .rejectNew → directory.previous lease = none)
    (room : directory.full lease (setting.policy lease) = false) :
    Registered setting (directory.register lease setting.mode)
      (Function.update accepted lease.identity.playerKey (some lease.sessionId)) := by
  refine ⟨?_, ?_, ?_, ?_, ?_, ?_, ?_, ?_, ?_⟩
  · intro session current found
    rw [sessions_register] at found
    split at found
    · rename_i same
      cases found
      rwa [← same]
    · exact registered.owner session current found
  · intro user session bound
    rcases single_register_cases bound with ⟨rfl, rfl⟩ | older
    · rw [named]
    · exact registered.holder user session older
  · intro realm session placed
    rcases capacity_register_cases placed with ⟨rfl, rfl⟩ | older
    · rw [named]
    · exact registered.placed realm session older
  · intro multiple user
    rw [multiple]
    exact registered.unbound multiple user
  · intro realm maximum limited
    by_cases same : realm = lease.identity.realmKey
    · subst same
      refine card_register (registered.bound _ maximum limited) ?_
      rw [PresenceSetting.policy, limited] at room
      exact room
    · simp only [MemoryOnlineDirectory.register, update_of_ne same]
      exact registered.bound realm maximum limited
  · intro user session latest
    rw [update_apply] at latest
    split at latest
    · rename_i same
      cases latest
      rw [same, named]
    · exact registered.last user session latest
  · intro exclusive user session
    rw [single_register exclusive, update_apply, mem_register]
    split
    · simp only [some.injEq]
      exact ⟨fun same => ⟨same, .inl same⟩, fun both => both.1⟩
    · rename_i other
      rw [registered.single exclusive]
      refine and_congr_right (fun latest => ⟨.inr, fun present => present.resolve_left ?_⟩)
      rintro rfl
      rw [← registered.last user _ latest, named] at other
      exact other rfl
  · intro exclusive user session bound
    rw [single_register exclusive] at bound
    split at bound
    · cases bound
      simp [MemoryOnlineDirectory.register, named]
    · rename_i other
      refine mem_capacity_register (registered.slot exclusive user session bound) ?_
      intro met
      have held := (filter_eq_some_iff.mp met).1
      exact other ((registered.holder _ _ bound).symm.trans (registered.holder _ _ held))
  · intro reject session member
    have exclusive : setting.mode ≠ .allowMultiple := by
      rw [reject]
      decide
    rw [single_register exclusive]
    split
    · rename_i same
      rcases mem_register.mp member with rfl | older
      · rfl
      · have bound := registered.alone reject session older
        rw [same] at bound
        by_contra other
        have met : directory.previous lease = some session :=
          filter_eq_some_iff.mpr ⟨bound, decide_eq_true (fun same => other (by rw [same]))⟩
        rw [free reject] at met
        cases met
    · rename_i other
      refine registered.alone reject session ((mem_register.mp member).resolve_left ?_)
      rintro rfl
      rw [named] at other
      exact other rfl

theorem renewed
    (known : lease.sessionId ∈ directory.sessions) :
    Registered setting
      { directory with sessions := directory.sessions.insert lease.sessionId lease } accepted := by
  refine registered.congr ?_ ?_ rfl rfl
  · intro session current found
    rw [OrderedMap.getElem?_insert_ite] at found
    split at found
    · rename_i same
      cases found
      rwa [← same]
    · exact registered.owner session current found
  · intro session
    simp only [ExtTreeMap.mem_insert, Std.LawfulEqCmp.compare_eq_iff_eq, or_iff_right_iff_imp]
    rintro rfl
    exact known

theorem single_unregister_ne
    (owned : directory.sessions[lease.sessionId]?.any (·.gatewayId = lease.gatewayId))
    (user : PlayerKey) : (directory.unregister lease).single user ≠ some lease.sessionId := by
  by_cases bound : directory.single lease.identity.playerKey = some lease.sessionId
  · by_cases same : user = lease.identity.playerKey
    · subst same
      rw [directory.single_unregister_self owned bound]
      nofun
    · simp only [unregister, if_pos owned, if_pos bound, update_of_ne same]
      intro held
      exact same ((registered.holder _ _ held).symm.trans (by rw [named]))
  · simp only [unregister, if_pos owned, if_neg bound]
    intro held
    have same := registered.holder _ _ held
    rw [← named] at same
    exact bound (same ▸ held)

theorem unregister :
    Registered setting (directory.unregister lease) accepted := by
  by_cases owned : directory.sessions[lease.sessionId]?.any (·.gatewayId = lease.gatewayId)
  · have member {session : Uuid} : session ∈ (directory.unregister lease).sessions ↔
        session ≠ lease.sessionId ∧ session ∈ directory.sessions := by
      rw [MemoryOnlineDirectory.unregister, if_pos owned, ExtTreeMap.mem_erase, ne_eq,
        Std.LawfulEqCmp.compare_eq_iff_eq]
      exact and_congr_left (fun _ => ne_comm)
    have kept {realm : RealmKey} {session : Uuid}
        (placed : session ∈ (directory.unregister lease).capacity realm) :
        session ∈ directory.capacity realm := by
      simp only [MemoryOnlineDirectory.unregister, if_pos owned, update_apply] at placed
      split at placed
      · rename_i same
        rw [same]
        exact Finset.mem_of_mem_erase placed
      · exact placed
    have held {user : PlayerKey} {session : Uuid}
        (bound : (directory.unregister lease).single user = some session) :
        session ≠ lease.sessionId ∧ directory.single user = some session := by
      have different : session ≠ lease.sessionId := by
        rintro rfl
        exact registered.single_unregister_ne named owned user bound
      exact ⟨different, (directory.single_unregister_of_ne different user).mp bound⟩
    refine ⟨?_, ?_, ?_, ?_, ?_, registered.last, ?_, ?_, ?_⟩
    · intro session current found
      have different : session ≠ lease.sessionId :=
        (member.mp (by rw [← ExtTreeMap.isSome_getElem?_iff_mem, found]; rfl)).1
      rw [directory.sessions_unregister_of_ne different] at found
      exact registered.owner session current found
    · exact fun user session bound => registered.holder user session (held bound).2
    · exact fun realm session placed => registered.placed realm session (kept placed)
    · intro multiple user
      refine eq_none_iff_forall_ne_some.mpr (fun session bound => ?_)
      have older := (held bound).2
      rw [registered.unbound multiple] at older
      cases older
    · intro realm maximum limited
      exact le_trans (Finset.card_le_card (fun _ => kept)) (registered.bound realm maximum limited)
    · intro exclusive user session
      by_cases same : session = lease.sessionId
      · subst same
        refine iff_of_false (registered.single_unregister_ne named owned user) ?_
        exact fun both => (member.mp both.2).1 rfl
      · rw [directory.single_unregister_of_ne same, registered.single exclusive, member]
        exact and_congr_right (fun _ => (and_iff_right same).symm)
    · intro exclusive user session bound
      obtain ⟨different, older⟩ := held bound
      exact (directory.mem_capacity_unregister_of_ne different _).mpr
        (registered.slot exclusive user session older)
    · intro reject session present
      obtain ⟨different, older⟩ := member.mp present
      exact (directory.single_unregister_of_ne different _).mpr
        (registered.alone reject session older)
  · rw [MemoryOnlineDirectory.unregister, if_neg owned]
    exact registered

end

end Registered

end MemoryOnlineDirectory

end Elura
