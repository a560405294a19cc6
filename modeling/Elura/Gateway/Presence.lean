import Elura.Core.Credentials

/-!
The in-memory online directory of `elura-gateway`: `capacity` holds the sessions that take a place
in a realm, `single` the session that a user's login is bound to. An absent set of sessions and an
empty one are not told apart.
-/

namespace Elura

open Fallible Function

open Std (ExtTreeMap)

structure SessionLease where
  sessionId : Uuid
  gatewayId : String
  identity : Identity
  expiresAt : Nat
  deriving DecidableEq, Repr

inductive DuplicateLoginMode
  | allowMultiple
  | rejectNew
  | kickExisting
  deriving DecidableEq, Repr

structure OnlineAdmissionPolicy where
  duplicateLogin : DuplicateLoginMode
  maxSessions : Option Nat
  deriving DecidableEq, Repr

def OnlineAdmissionPolicy.new (duplicateLogin : DuplicateLoginMode) (maxSessions : Option Nat) :
    Except Error OnlineAdmissionPolicy :=
  if maxSessions = some 0 then
    .error (.invalidConfig "online realm capacity must be positive")
  else .ok { duplicateLogin, maxSessions }

inductive OnlineAdmission
  | accepted (previousSession : Option Uuid)
  | duplicate
  | realmFull
  deriving DecidableEq, Repr

abbrev RealmKey := UInt32 × UInt32

def Identity.realmKey (identity : Identity) : RealmKey :=
  (identity.regionId, identity.realmId)

@[ext]
structure MemoryOnlineDirectory where
  sessions : ExtTreeMap Uuid SessionLease
  groups : String → Finset Uuid
  single : PlayerKey → Option Uuid
  capacity : RealmKey → Finset Uuid

namespace MemoryOnlineDirectory

def new : MemoryOnlineDirectory where
  sessions := ∅
  groups := fun _ => ∅
  single := fun _ => none
  capacity := fun _ => ∅

def purge (directory : MemoryOnlineDirectory) (now : Nat) : MemoryOnlineDirectory :=
  let sessions := directory.sessions.filter (fun _ lease => now < lease.expiresAt)
  { sessions
    groups := fun group => (directory.groups group).filter (· ∈ sessions)
    single := fun user => (directory.single user).filter (· ∈ sessions)
    capacity := fun realm => (directory.capacity realm).filter (· ∈ sessions) }

def previous (directory : MemoryOnlineDirectory) (lease : SessionLease) : Option Uuid :=
  (directory.single lease.identity.playerKey).filter (· ≠ lease.sessionId)

def transfersSlot (directory : MemoryOnlineDirectory) (lease : SessionLease)
    (mode : DuplicateLoginMode) : Bool :=
  mode = .kickExisting &&
    (directory.previous lease).any (· ∈ directory.capacity lease.identity.realmKey)

def full (directory : MemoryOnlineDirectory) (lease : SessionLease)
    (policy : OnlineAdmissionPolicy) : Bool :=
  let slots := directory.capacity lease.identity.realmKey
  let used := slots.card - (directory.transfersSlot lease policy.duplicateLogin).toNat
  lease.sessionId ∉ slots && policy.maxSessions.any (· ≤ used)

def register (directory : MemoryOnlineDirectory) (lease : SessionLease)
    (mode : DuplicateLoginMode) : MemoryOnlineDirectory :=
  let slots := directory.capacity lease.identity.realmKey
  let kept :=
    match directory.transfersSlot lease mode, directory.previous lease with
    | true, some previous => slots.erase previous
    | _, _ => slots
  { directory with
    single :=
      match mode with
      | .allowMultiple => directory.single
      | .rejectNew | .kickExisting =>
        Function.update directory.single lease.identity.playerKey (some lease.sessionId)
    capacity :=
      Function.update directory.capacity lease.identity.realmKey (insert lease.sessionId kept)
    sessions := directory.sessions.insert lease.sessionId lease }

def acquire (lease : SessionLease) (policy : OnlineAdmissionPolicy) (now : Nat) :
    Fallible MemoryOnlineDirectory Error OnlineAdmission := do
  liftM lease.identity.validate
  let policy ← liftM (OnlineAdmissionPolicy.new policy.duplicateLogin policy.maxSessions)
  modify (·.purge now)
  let directory ← get
  if policy.duplicateLogin = .rejectNew ∧ (directory.previous lease).isSome then
    return .duplicate
  else if directory.full lease policy then
    return .realmFull
  else
    set (directory.register lease policy.duplicateLogin)
    return .accepted
      (if policy.duplicateLogin = .kickExisting then directory.previous lease else none)

def renew (lease : SessionLease) (now : Nat) : Fallible MemoryOnlineDirectory Error Unit := do
  liftM lease.identity.validate
  modify (·.purge now)
  let directory ← get
  if directory.sessions[lease.sessionId]?.any (·.gatewayId = lease.gatewayId) then
    set { directory with sessions := directory.sessions.insert lease.sessionId lease }
  else throw .sessionRevoked

def unregister (directory : MemoryOnlineDirectory) (lease : SessionLease) :
    MemoryOnlineDirectory :=
  if directory.sessions[lease.sessionId]?.any (·.gatewayId = lease.gatewayId) then
    { sessions := directory.sessions.erase lease.sessionId
      groups := fun group => (directory.groups group).erase lease.sessionId
      capacity := Function.update directory.capacity lease.identity.realmKey
        ((directory.capacity lease.identity.realmKey).erase lease.sessionId)
      single :=
        if directory.single lease.identity.playerKey = some lease.sessionId then
          Function.update directory.single lease.identity.playerKey none
        else directory.single }
  else directory

def trackGroup (session : Uuid) (group : String) (join : Bool) :
    Fallible MemoryOnlineDirectory Error Unit := do
  if group = "" then throw (.invalidConfig "empty online group")
  else modify (fun directory => { directory with
    groups := Function.update directory.groups group
      (if join then insert session (directory.groups group)
      else (directory.groups group).erase session) })

section Lookup

variable (directory : MemoryOnlineDirectory) (now : Nat)
variable {lease : SessionLease} {id : Uuid}

theorem sessions_purge (id : Uuid) : (directory.purge now).sessions[id]? =
    directory.sessions[id]?.filter (fun lease => now < lease.expiresAt) := by
  cases found : directory.sessions[id]? with
  | none | some => simp [purge, found]

theorem sessions_purge_purge {now later : Nat} (forward : now ≤ later) (id : Uuid) :
    ((directory.purge now).purge later).sessions[id]? = (directory.purge later).sessions[id]? := by
  simp only [sessions_purge, Option.filter_filter]
  congr 1
  funext lease
  rw [← Bool.decide_and]
  exact decide_eq_decide.mpr
    ⟨fun both => both.2, fun live => ⟨Nat.lt_of_le_of_lt forward live, live⟩⟩

theorem mem_capacity_purge (id : Uuid) (realm : RealmKey) :
    id ∈ (directory.purge now).capacity realm ↔
      id ∈ directory.capacity realm ∧ id ∈ (directory.purge now).sessions := by
  simp [purge]

theorem single_purge (id : Uuid) (user : PlayerKey) :
    (directory.purge now).single user = some id ↔
      directory.single user = some id ∧ id ∈ (directory.purge now).sessions := by
  simp [purge]

theorem sessions_register (lease : SessionLease) (mode : DuplicateLoginMode) (id : Uuid) :
    (directory.register lease mode).sessions[id]? =
      if lease.sessionId = id then some lease else directory.sessions[id]? :=
  OrderedMap.getElem?_insert_ite _ _ _ _

theorem single_register_kick (lease : SessionLease) :
    (directory.register lease .kickExisting).single lease.identity.playerKey =
      some lease.sessionId :=
  Function.update_self _ _ _

theorem sessions_unregister_of_ne (different : id ≠ lease.sessionId) :
    (directory.unregister lease).sessions[id]? = directory.sessions[id]? := by
  unfold unregister
  split
  · rw [OrderedMap.getElem?_erase_ite, if_neg different.symm]
  · rfl

theorem mem_capacity_unregister_of_ne (different : id ≠ lease.sessionId) (realm : RealmKey) :
    id ∈ (directory.unregister lease).capacity realm ↔ id ∈ directory.capacity realm := by
  unfold unregister
  split
  · by_cases same : realm = lease.identity.realmKey
    · subst same
      simp [different]
    · simp [update_of_ne same]
  · rfl

theorem single_unregister_of_ne (different : id ≠ lease.sessionId) (user : PlayerKey) :
    (directory.unregister lease).single user = some id ↔ directory.single user = some id := by
  unfold unregister
  split
  · split
    · rename_i bound
      by_cases same : user = lease.identity.playerKey
      · subst same
        simp [bound, different.symm]
      · simp [update_of_ne same]
    · rfl
  · rfl

theorem single_unregister_self
    (owned : directory.sessions[lease.sessionId]?.any (·.gatewayId = lease.gatewayId))
    (bound : directory.single lease.identity.playerKey = some lease.sessionId) :
    (directory.unregister lease).single lease.identity.playerKey = none := by
  rw [unregister, if_pos owned]
  simp only [if_pos bound]
  exact update_self _ _ _

end Lookup

/-- How a login with a usable lease and policy ends. -/
theorem acquire_eq {lease : SessionLease} {policy : OnlineAdmissionPolicy} {now : Nat}
    (identity : lease.identity.validate = .ok ()) (bounded : policy.maxSessions ≠ some 0)
    (directory : MemoryOnlineDirectory) :
    (acquire lease policy now).call directory =
      if policy.duplicateLogin = .rejectNew ∧ ((directory.purge now).previous lease).isSome then
        (.ok .duplicate, directory.purge now)
      else if (directory.purge now).full lease policy then
        (.ok .realmFull, directory.purge now)
      else
        (.ok (.accepted (if policy.duplicateLogin = .kickExisting then
          (directory.purge now).previous lease else none)),
          (directory.purge now).register lease policy.duplicateLogin) := by
  simp only [acquire, call_bind, call_liftExcept, identity,
    OnlineAdmissionPolicy.new, if_neg bounded, call_modify, call_get,
    call_ite, call_pure, call_set]

theorem acquire_cases (lease : SessionLease) (policy : OnlineAdmissionPolicy) (now : Nat)
    (directory : MemoryOnlineDirectory) :
    (∃ error, (acquire lease policy now).call directory = (.error error, directory)) ∨
      (acquire lease policy now).call directory = (.ok .duplicate, directory.purge now) ∨
      (acquire lease policy now).call directory = (.ok .realmFull, directory.purge now) ∨
      (policy.duplicateLogin = .rejectNew → (directory.purge now).previous lease = none) ∧
        (directory.purge now).full lease policy = false ∧
        (acquire lease policy now).call directory =
          (.ok (.accepted (if policy.duplicateLogin = .kickExisting then
            (directory.purge now).previous lease else none)),
            (directory.purge now).register lease policy.duplicateLogin) := by
  cases identity : lease.identity.validate with
  | error error =>
    refine .inl ⟨error, ?_⟩
    simp only [acquire, call_bind, call_liftExcept, identity]
  | ok value =>
    by_cases unbounded : policy.maxSessions = some 0
    · refine .inl ⟨.invalidConfig "online realm capacity must be positive", ?_⟩
      simp only [acquire, call_bind, call_liftExcept, identity,
        OnlineAdmissionPolicy.new, if_pos unbounded]
    · rw [acquire_eq identity unbounded]
      split
      · exact .inr (.inl rfl)
      · rename_i unmet
        split
        · exact .inr (.inr (.inl rfl))
        · rename_i room
          refine .inr (.inr (.inr ⟨fun reject => ?_, Bool.not_eq_true _ ▸ room, rfl⟩))
          cases met : (directory.purge now).previous lease with
          | none => rfl
          | some => exact absurd ⟨reject, by rw [met]; rfl⟩ unmet

/-- What the directory says about the sessions other than one, at some time: their
live leases, their places in a realm and the users whose login they hold. -/
structure SameOthers (session : Uuid) (now : Nat) (before after : MemoryOnlineDirectory) :
    Prop where
  lease : ∀ other : Uuid, other ≠ session →
    (after.purge now).sessions[other]? = (before.purge now).sessions[other]?
  slot : ∀ other, other ≠ session → ∀ realm,
    (other ∈ (after.purge now).capacity realm ↔ other ∈ (before.purge now).capacity realm)
  single : ∀ other, other ≠ session → ∀ user,
    ((after.purge now).single user = some other ↔ (before.purge now).single user = some other)

namespace SameOthers

variable {session : Uuid} {now : Nat} {before middle after : MemoryOnlineDirectory}

theorem refl (session : Uuid) (now : Nat) (directory : MemoryOnlineDirectory) :
    SameOthers session now directory directory :=
  ⟨fun _ _ => rfl, fun _ _ _ => Iff.rfl, fun _ _ _ => Iff.rfl⟩

theorem trans (first : SameOthers session now before middle)
    (second : SameOthers session now middle after) : SameOthers session now before after where
  lease := fun other different => (second.lease other different).trans (first.lease other different)
  slot := fun other different realm =>
    (second.slot other different realm).trans (first.slot other different realm)
  single := fun other different user =>
    (second.single other different user).trans (first.single other different user)

theorem symm (same : SameOthers session now before after) : SameOthers session now after before where
  lease := fun other different => (same.lease other different).symm
  slot := fun other different realm => (same.slot other different realm).symm
  single := fun other different user => (same.single other different user).symm

theorem of_live
    (lease : ∀ other : Uuid, other ≠ session →
      (after.purge now).sessions[other]? = (before.purge now).sessions[other]?)
    (slot : ∀ other, other ≠ session → other ∈ (before.purge now).sessions → ∀ realm,
      (other ∈ after.capacity realm ↔ other ∈ before.capacity realm))
    (single : ∀ other, other ≠ session → other ∈ (before.purge now).sessions → ∀ user,
      (after.single user = some other ↔ before.single user = some other)) :
    SameOthers session now before after := by
  have live : ∀ other, other ≠ session →
      (other ∈ (after.purge now).sessions ↔ other ∈ (before.purge now).sessions) := by
    intro other different
    rw [← ExtTreeMap.isSome_getElem?_iff_mem, ← ExtTreeMap.isSome_getElem?_iff_mem,
      lease other different]
  refine ⟨lease, fun other different realm => ?_, fun other different user => ?_⟩
  · rw [mem_capacity_purge, mem_capacity_purge, live other different]
    exact and_congr_left (fun known => slot other different known realm)
  · rw [single_purge, single_purge, live other different]
    exact and_congr_left (fun known => single other different known user)

theorem purge (session : Uuid) (directory : MemoryOnlineDirectory) {earlier now : Nat}
    (forward : earlier ≤ now) : SameOthers session now directory (directory.purge earlier) := by
  have lease := directory.sessions_purge_purge forward
  have known (other : Uuid) (member : other ∈ (directory.purge now).sessions) :
      other ∈ (directory.purge earlier).sessions := by
    rw [← ExtTreeMap.isSome_getElem?_iff_mem, ← lease, sessions_purge] at member
    rw [← ExtTreeMap.isSome_getElem?_iff_mem]
    cases found : (directory.purge earlier).sessions[other]? with
    | none => simp [found] at member
    | some => rfl
  refine of_live (fun other _ => lease other) ?_ ?_
  · intro other _ member realm
    rw [mem_capacity_purge]
    exact and_iff_left (known other member)
  · intro other _ member user
    rw [single_purge]
    exact and_iff_left (known other member)

theorem unregister (directory : MemoryOnlineDirectory) (lease : SessionLease) (now : Nat) :
    SameOthers lease.sessionId now directory (directory.unregister lease) := by
  refine of_live ?_ ?_ ?_
  · intro other different
    rw [sessions_purge, sessions_purge, directory.sessions_unregister_of_ne different]
  · exact fun other different _ realm => directory.mem_capacity_unregister_of_ne different realm
  · exact fun other different _ user => directory.single_unregister_of_ne different user

theorem register {directory : MemoryOnlineDirectory} {lease : SessionLease}
    {mode : DuplicateLoginMode} (now : Nat)
    (alone : mode = .allowMultiple ∨ directory.previous lease = none) :
    SameOthers lease.sessionId now directory (directory.register lease mode) := by
  have kept : directory.transfersSlot lease mode = false := by
    rcases alone with rfl | none_
    · rfl
    · simp [transfersSlot, none_]
  refine of_live ?_ ?_ ?_
  · intro other different
    rw [sessions_purge, sessions_purge, sessions_register, if_neg different.symm]
  · intro other different _ realm
    simp only [MemoryOnlineDirectory.register, kept]
    by_cases same : realm = lease.identity.realmKey
    · subst same
      simp [different]
    · simp [update_of_ne same]
  · intro other different _ user
    have unbound : directory.previous lease = none → user = lease.identity.playerKey →
        directory.single user ≠ some other := by
      rintro none_ rfl bound
      simp [previous, bound, different] at none_
    cases mode with
    | allowMultiple => rfl
    | rejectNew | kickExisting =>
      simp only [reduceCtorEq, false_or] at alone
      simp only [MemoryOnlineDirectory.register]
      by_cases same : user = lease.identity.playerKey
      · have absent := unbound alone same
        subst same
        simp [absent, different.symm]
      · simp [update_of_ne same]

end SameOthers

end MemoryOnlineDirectory

end Elura
