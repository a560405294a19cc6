import Elura.Gateway.Presence

/-!
What the online directory holds for one session: operations in the name of other sessions can take
entries away but never add one, and unregistering it leaves none.
-/

namespace Elura.MemoryOnlineDirectory

open Fallible Function

open Std (ExtTreeMap)

variable {lease : SessionLease}

structure Absent (session : Uuid) (directory : MemoryOnlineDirectory) : Prop where
  lease : directory.sessions[session]? = none
  slot : ∀ realm, session ∉ directory.capacity realm
  single : ∀ user, directory.single user ≠ some session

structure Entries (session : Uuid) (gatewayId : String) (owner : Option Identity)
    (directory : MemoryOnlineDirectory) : Prop where
  lease : ∀ lease, directory.sessions[session]? = some lease →
    owner.isSome ∧ lease.gatewayId = gatewayId
  slot : ∀ realm, session ∈ directory.capacity realm → session ∈ directory.sessions ∧
    owner.map Identity.realmKey = some realm
  single : ∀ user, directory.single user = some session → session ∈ directory.sessions ∧
    owner.map Identity.playerKey = some user

variable {session : Uuid} {gatewayId : String} {owner : Option Identity}
  {directory : MemoryOnlineDirectory}

theorem Absent.entries (absent : Absent session directory) (gatewayId : String)
    (owner : Option Identity) : Entries session gatewayId owner directory where
  lease := fun lease found => by
    rw [absent.lease] at found
    cases found
  slot := fun realm placed => absurd placed (absent.slot realm)
  single := fun user bound => absurd bound (absent.single user)

theorem Entries.absent_of_lease (entries : Entries session gatewayId owner directory)
    (none_ : directory.sessions[session]? = none) : Absent session directory := by
  have unknown : session ∉ directory.sessions := by
    rw [← ExtTreeMap.isSome_getElem?_iff_mem, none_]
    exact Bool.false_ne_true
  exact ⟨none_, fun realm placed => unknown (entries.slot realm placed).1,
    fun user bound => unknown (entries.single user bound).1⟩

theorem Entries.absent (entries : Entries session gatewayId none directory) :
    Absent session directory := by
  refine entries.absent_of_lease (Option.eq_none_iff_forall_ne_some.mpr ?_)
  intro lease found
  exact absurd (entries.lease lease found).1 Bool.false_ne_true

theorem Entries.mono (entries : Entries session gatewayId owner directory)
    {after : MemoryOnlineDirectory}
    (lease : ∀ lease, after.sessions[session]? = some lease →
      directory.sessions[session]? = some lease)
    (slot : ∀ realm, session ∈ after.capacity realm →
      session ∈ directory.capacity realm ∧ (session ∈ directory.sessions → session ∈ after.sessions))
    (single : ∀ user, after.single user = some session → directory.single user = some session ∧
        (session ∈ directory.sessions → session ∈ after.sessions)) :
    Entries session gatewayId owner after where
  lease := fun found known => entries.lease found (lease found known)
  slot := fun realm placed =>
    have ⟨older, kept⟩ := slot realm placed
    have ⟨member, owned⟩ := entries.slot realm older
    ⟨kept member, owned⟩
  single := fun user bound =>
    have ⟨older, kept⟩ := single user bound
    have ⟨member, owned⟩ := entries.single user older
    ⟨kept member, owned⟩

theorem Entries.purge (entries : Entries session gatewayId owner directory) (now : Nat) :
    Entries session gatewayId owner (directory.purge now) := by
  refine entries.mono ?_ ?_ ?_
  · intro lease found
    rw [sessions_purge] at found
    exact (Option.filter_eq_some_iff.mp found).1
  · intro realm placed
    obtain ⟨older, live⟩ := (mem_capacity_purge _ _ _ _).mp placed
    exact ⟨older, fun _ => live⟩
  · intro user bound
    obtain ⟨older, live⟩ := (single_purge _ _ _ _).mp bound
    exact ⟨older, fun _ => live⟩

theorem mem_insert_of_mem (member : session ∈ directory.sessions) :
    session ∈ directory.sessions.insert lease.sessionId lease :=
  ExtTreeMap.mem_insert.mpr (.inr member)

theorem Entries.register (entries : Entries session gatewayId owner directory)
    (other : lease.sessionId ≠ session) (mode : DuplicateLoginMode) :
    Entries session gatewayId owner (directory.register lease mode) := by
  refine entries.mono ?_ ?_ ?_
  · intro found known
    rwa [sessions_register, if_neg other] at known
  · intro realm placed
    refine ⟨?_, mem_insert_of_mem⟩
    by_cases same : realm = lease.identity.realmKey
    · subst same
      simp only [MemoryOnlineDirectory.register, update_self, Finset.mem_insert] at placed
      rcases placed with named | kept
      · exact absurd named.symm other
      · split at kept
        · exact Finset.mem_of_mem_erase kept
        · exact kept
    · simpa [MemoryOnlineDirectory.register, update_of_ne same] using placed
  · intro user bound
    refine ⟨?_, mem_insert_of_mem⟩
    by_cases same : user = lease.identity.playerKey
    · subst same
      cases mode with
      | allowMultiple => exact bound
      | rejectNew | kickExisting =>
        simp only [MemoryOnlineDirectory.register, update_self, Option.some.injEq] at bound
        exact absurd bound other
    · cases mode with
      | allowMultiple => exact bound
      | rejectNew | kickExisting =>
        simpa [MemoryOnlineDirectory.register, update_of_ne same] using bound

theorem Entries.acquire (entries : Entries session gatewayId owner directory)
    (other : lease.sessionId ≠ session) (policy : OnlineAdmissionPolicy) (now : Nat) :
    Entries session gatewayId owner
      ((MemoryOnlineDirectory.acquire lease policy now).call directory).2 := by
  rcases acquire_cases lease policy now directory with
    ⟨error, refused⟩ | duplicate | full | ⟨_, _, accepted⟩
  · rw [refused]
    exact entries
  · rw [duplicate]
    exact entries.purge now
  · rw [full]
    exact entries.purge now
  · rw [accepted]
    exact (entries.purge now).register other _

theorem renew_cases (lease : SessionLease) (now : Nat) (directory : MemoryOnlineDirectory) :
    ((MemoryOnlineDirectory.renew lease now).call directory).2 = directory ∨
      ((MemoryOnlineDirectory.renew lease now).call directory).2 = directory.purge now ∨
      lease.sessionId ∈ (directory.purge now).sessions ∧
        ((MemoryOnlineDirectory.renew lease now).call directory).2 =
          { directory.purge now with
            sessions := (directory.purge now).sessions.insert lease.sessionId lease } := by
  simp only [renew, call_bind, call_liftExcept, call_modify, call_get]
  cases lease.identity.validate with
  | error => exact .inl rfl
  | ok value =>
    simp only
    split
    · rename_i owned
      refine .inr (.inr ⟨?_, rfl⟩)
      rw [← ExtTreeMap.isSome_getElem?_iff_mem]
      cases found : (directory.purge now).sessions[lease.sessionId]? with
      | none => simp [found] at owned
      | some => rfl
    · exact .inr (.inl rfl)

section

variable (entries : Entries session gatewayId owner directory)
include entries

theorem Entries.renew
    (other : lease.sessionId ≠ session) (now : Nat) :
    Entries session gatewayId owner
      ((MemoryOnlineDirectory.renew lease now).call directory).2 := by
  rcases renew_cases lease now directory with unchanged | purged | ⟨_, renewed⟩
  · rw [unchanged]
    exact entries
  · rw [purged]
    exact entries.purge now
  · rw [renewed]
    refine (entries.purge now).mono ?_ ?_ ?_
    · intro found known
      rwa [OrderedMap.getElem?_insert_ite, if_neg other] at known
    · exact fun realm placed => ⟨placed, mem_insert_of_mem⟩
    · exact fun user bound => ⟨bound, mem_insert_of_mem⟩

theorem Entries.unregister
    (other : lease.sessionId ≠ session) :
    Entries session gatewayId owner (directory.unregister lease) := by
  have kept (member : session ∈ directory.sessions) :
      session ∈ (directory.unregister lease).sessions := by
    rw [← ExtTreeMap.isSome_getElem?_iff_mem] at member ⊢
    rwa [sessions_unregister_of_ne _ other.symm]
  refine entries.mono ?_ ?_ ?_
  · intro found known
    rwa [sessions_unregister_of_ne _ other.symm] at known
  · exact fun realm placed => ⟨(mem_capacity_unregister_of_ne _ other.symm realm).mp placed, kept⟩
  · exact fun user bound => ⟨(single_unregister_of_ne _ other.symm user).mp bound, kept⟩

theorem Entries.trackGroup
    (member : Uuid) (group : String) (join : Bool) : Entries session gatewayId owner
      ((MemoryOnlineDirectory.trackGroup member group join).call directory).2 := by
  simp only [MemoryOnlineDirectory.trackGroup]
  split
  · exact entries
  · exact ⟨entries.lease, entries.slot, entries.single⟩

end

section Own

variable {identity : Identity} {lease : SessionLease}

theorem Absent.register (absent : Absent lease.sessionId directory) (mode : DuplicateLoginMode) :
    Entries lease.sessionId lease.gatewayId (some lease.identity)
      (directory.register lease mode) := by
  have member : lease.sessionId ∈ (directory.register lease mode).sessions :=
    ExtTreeMap.mem_insert_self
  refine ⟨?_, ?_, ?_⟩
  · intro found known
    rw [sessions_register, if_pos rfl] at known
    cases known
    exact ⟨rfl, rfl⟩
  · intro realm placed
    refine ⟨member, ?_⟩
    by_cases same : realm = lease.identity.realmKey
    · rw [same]
      rfl
    · refine absurd ?_ (absent.slot realm)
      simpa [MemoryOnlineDirectory.register, update_of_ne same] using placed
  · intro user bound
    refine ⟨member, ?_⟩
    by_cases same : user = lease.identity.playerKey
    · rw [same]
      rfl
    · refine absurd ?_ (absent.single user)
      cases mode with
      | allowMultiple => exact bound
      | rejectNew | kickExisting =>
        simpa [MemoryOnlineDirectory.register, update_of_ne same] using bound

theorem Absent.purge (absent : Absent session directory) (now : Nat) :
    Absent session (directory.purge now) :=
  ((absent.entries "" none).purge now).absent

theorem Entries.renewOwn
    (entries : Entries lease.sessionId lease.gatewayId (some identity) directory) (now : Nat) :
    Entries lease.sessionId lease.gatewayId (some identity)
      ((MemoryOnlineDirectory.renew lease now).call directory).2 := by
  rcases renew_cases lease now directory with unchanged | purged | ⟨_, renewed⟩
  · rw [unchanged]
    exact entries
  · rw [purged]
    exact entries.purge now
  · rw [renewed]
    have kept := entries.purge now
    refine ⟨?_, ?_, ?_⟩
    · intro found known
      rw [OrderedMap.getElem?_insert_ite, if_pos rfl] at known
      cases known
      exact ⟨rfl, rfl⟩
    · exact fun realm placed => ⟨ExtTreeMap.mem_insert_self, (kept.slot realm placed).2⟩
    · exact fun user bound => ⟨ExtTreeMap.mem_insert_self, (kept.single user bound).2⟩

theorem Entries.unregisterOwn
    (entries : Entries lease.sessionId lease.gatewayId (some lease.identity) directory) :
    Absent lease.sessionId (directory.unregister lease) := by
  cases found : directory.sessions[lease.sessionId]? with
  | none =>
    have absent := entries.absent_of_lease found
    rwa [MemoryOnlineDirectory.unregister, found, if_neg (by simp)]
  | some current =>
    rw [MemoryOnlineDirectory.unregister, found, if_pos (by simp [(entries.lease current found).2])]
    refine ⟨?_, ?_, ?_⟩
    · rw [OrderedMap.getElem?_erase_ite, if_pos rfl]
    · intro realm placed
      by_cases same : realm = lease.identity.realmKey
      · subst same
        simp at placed
      · simp only [update_of_ne same] at placed
        exact same (Option.some.inj (entries.slot realm placed).2).symm
    · intro user bound
      by_cases same : user = lease.identity.playerKey
      · subst same
        simp only at bound
        split at bound
        · simp at bound
        · rename_i unbound
          exact unbound bound
      · refine same (Option.some.inj (entries.single user ?_).2).symm
        simp only at bound
        split at bound
        · rwa [update_of_ne same] at bound
        · exact bound

end Own

end Elura.MemoryOnlineDirectory

namespace Elura

inductive DirectoryOperation
  | acquire (lease : SessionLease) (policy : OnlineAdmissionPolicy)
  | renew (lease : SessionLease)
  | unregister (lease : SessionLease)
  | trackGroup (session : Uuid) (group : String) (join : Bool)
  | query

namespace DirectoryOperation

def apply (operation : DirectoryOperation) (now : Nat) (directory : MemoryOnlineDirectory) :
    MemoryOnlineDirectory :=
  match operation with
  | acquire lease policy => ((MemoryOnlineDirectory.acquire lease policy now).call directory).2
  | renew lease => ((MemoryOnlineDirectory.renew lease now).call directory).2
  | unregister lease => directory.unregister lease
  | trackGroup session group join =>
    ((MemoryOnlineDirectory.trackGroup session group join).call directory).2
  | query => directory.purge now

def Foreign (session : Uuid) : DirectoryOperation → Prop
  | acquire lease _ | renew lease | unregister lease => lease.sessionId ≠ session
  | trackGroup .. | query => True

open MemoryOnlineDirectory in
theorem entries {operation : DirectoryOperation} {session : Uuid}
    {gatewayId : String} {owner : Option Identity} {directory : MemoryOnlineDirectory}
    (foreign : operation.Foreign session) (now : Nat)
    (entries : Entries session gatewayId owner directory) :
    Entries session gatewayId owner (operation.apply now directory) := by
  cases operation with
  | acquire _ policy => exact entries.acquire foreign policy now
  | renew => exact entries.renew foreign now
  | unregister => exact entries.unregister foreign
  | trackGroup member group join => exact entries.trackGroup member group join
  | query => exact entries.purge now

end DirectoryOperation

end Elura
