import Elura.Gateway.SessionState

/-!
The two hash maps behind a gateway's session index. `SessionIndex` takes an absent set of sessions
for an empty one; here a set that becomes empty has to leave its map.
-/

namespace Elura

open List

open Std (ExtTreeMap)

structure SessionTables where
  identities : ExtTreeMap Uuid Identity
  users : PlayerKey → Option (Finset Uuid)

namespace SessionTables

variable {tables : SessionTables} {index : SessionIndex}

def default : SessionTables where
  identities := ∅
  users := fun _ => none

def removeUser (users : PlayerKey → Option (Finset Uuid)) (session : Uuid) (identity : Identity) :
    PlayerKey → Option (Finset Uuid) :=
  Function.update users identity.playerKey
    (((users identity.playerKey).map (·.erase session)).filter (· ≠ ∅))

def otherUsers (tables : SessionTables) (session : Uuid) : PlayerKey → Option (Finset Uuid) :=
  match tables.identities[session]? with
  | some previous => removeUser tables.users session previous
  | none => tables.users

def insert (tables : SessionTables) (session : Uuid) (identity : Identity) : SessionTables where
  identities := tables.identities.insert session identity
  users := Function.update (tables.otherUsers session) identity.playerKey
    (some (Insert.insert session ((tables.otherUsers session identity.playerKey).getD ∅)))

def remove (tables : SessionTables) (session : Uuid) : Option Identity × SessionTables :=
  match tables.identities[session]? with
  | none => (none, tables)
  | some identity =>
    (some identity,
      { identities := tables.identities.erase session
        users := removeUser tables.users session identity })

structure Represents (tables : SessionTables) (index : SessionIndex) : Prop where
  identities : ∀ session : Uuid, tables.identities[session]? = index.identities[session]?
  users : ∀ user, (tables.users user).getD ∅ = index.users user
  nonempty : ∀ user, tables.users user ≠ some ∅

theorem getD_removeUser (users : PlayerKey → Option (Finset Uuid)) (session : Uuid)
    (identity : Identity) (user : PlayerKey) : (removeUser users session identity user).getD ∅ =
      SessionIndex.removeUser (fun user => (users user).getD ∅) session identity user := by
  simp only [removeUser, SessionIndex.removeUser, Function.update_apply]
  split_ifs
  · cases users identity.playerKey with
    | none => rfl
    | some sessions =>
      by_cases empty : sessions.erase session = ∅
      · simp [Option.filter_some, empty]
      · simp [Option.filter_some, empty]
  · rfl

theorem removeUser_nonempty {users : PlayerKey → Option (Finset Uuid)}
    (nonempty : ∀ user, users user ≠ some ∅) (session : Uuid) (identity : Identity)
    (user : PlayerKey) : removeUser users session identity user ≠ some ∅ := by
  rw [removeUser, Function.update_apply]
  split_ifs
  · simp [Option.filter_eq_some_iff]
  · exact nonempty user

section

variable (represents : Represents tables index) (session : Uuid)
include represents

theorem Represents.otherUsers :
    (∀ user, (tables.otherUsers session user).getD ∅ = index.otherUsers session user) ∧
      ∀ user, tables.otherUsers session user ≠ some ∅ := by
  unfold SessionTables.otherUsers SessionIndex.otherUsers
  rw [represents.identities]
  cases index.identities[session]? with
  | none => exact ⟨represents.users, represents.nonempty⟩
  | some previous =>
    refine ⟨fun user => ?_, removeUser_nonempty represents.nonempty _ _⟩
    rw [getD_removeUser, funext represents.users]

theorem Represents.insert (identity : Identity) :
    Represents (tables.insert session identity) (index.insert session identity) := by
  obtain ⟨users, nonempty⟩ := represents.otherUsers session
  refine ⟨fun other => ?_, fun user => ?_, fun user => ?_⟩
  · simp only [SessionTables.insert, SessionIndex.insert, OrderedMap.getElem?_insert_ite,
      represents.identities]
  · simp only [SessionTables.insert, SessionIndex.insert, Function.update_apply, ← users]
    split_ifs <;> rfl
  · simp only [SessionTables.insert, Function.update_apply]
    split_ifs
    · simp
    · exact nonempty user

theorem Represents.remove :
    Represents (tables.remove session).2 (index.remove session) := by
  obtain ⟨users, nonempty⟩ := represents.otherUsers session
  unfold SessionTables.otherUsers at users nonempty
  unfold SessionTables.remove
  cases found : tables.identities[session]? with
  | none =>
    rw [found] at users
    refine ⟨fun other => ?_, users, represents.nonempty⟩
    simp only [SessionIndex.remove, OrderedMap.getElem?_erase_ite, ← represents.identities]
    split_ifs with own
    · rw [← own, found]
    · rfl
  | some =>
    rw [found] at users nonempty
    refine ⟨fun other => ?_, users, nonempty⟩
    simp only [SessionIndex.remove, OrderedMap.getElem?_erase_ite, represents.identities]

end

/-- A call of `insert`, or of `remove` if there is no identity. -/
structure Call where
  session : Uuid
  identity : Option Identity

def apply (tables : SessionTables) (call : Call) : SessionTables :=
  match call.identity with
  | some identity => tables.insert call.session identity
  | none => (tables.remove call.session).2

def lastInserted (calls : List Call) (session : Uuid) : Option Identity :=
  (calls.filter (·.session = session)).getLast?.bind Call.identity

theorem represents_apply (calls : List Call) :
    ∃ index, Represents (calls.foldl apply default) index ∧
      ∀ session : Uuid, index.identities[session]? = lastInserted calls session := by
  induction calls using reverseRecOn with
  | nil => exact ⟨.new, ⟨fun _ => rfl, fun _ => rfl, nofun⟩, fun _ => ExtTreeMap.getElem?_empty⟩
  | append_singleton calls call ih =>
    obtain ⟨index, represents, last⟩ := ih
    obtain ⟨own, identity⟩ := call
    rw [foldl_concat]
    have other (session : Uuid) : lastInserted (calls ++ [⟨own, identity⟩]) session =
        if own = session then identity else lastInserted calls session := by
      by_cases same : own = session
      · simp [lastInserted, same]
      · simp [lastInserted, same]
    cases identity with
    | some identity =>
      refine ⟨_, represents.insert own identity, fun session => ?_⟩
      rw [other, ← last]
      exact OrderedMap.getElem?_insert_ite _ _ _ _
    | none =>
      refine ⟨_, represents.remove own, fun session => ?_⟩
      rw [other, ← last]
      exact OrderedMap.getElem?_erase_ite _ _ _

theorem index_inverse (calls : List Call) :
    let tables := calls.foldl apply default
    (∀ user, (tables.users user).isSome ↔ ∃ (session : Uuid) (identity : Identity),
      tables.identities[session]? = some identity ∧ identity.playerKey = user) ∧
    (∀ user sessions, tables.users user = some sessions → sessions.Nonempty ∧
      ∀ session, session ∈ sessions ↔ ∃ identity,
        tables.identities[session]? = some identity ∧ identity.playerKey = user) ∧
    ∀ session, (tables.remove session).1 = lastInserted calls session := by
  intro tables
  obtain ⟨index, represents, last⟩ := represents_apply calls
  have listed (session : Uuid) (user : PlayerKey) : session ∈ (tables.users user).getD ∅ ↔
      ∃ identity, tables.identities[session]? = some identity ∧ identity.playerKey = user := by
    rw [represents.users, index.sound, represents.identities]
  have filled (user : PlayerKey) (sessions : Finset Uuid)
      (found : tables.users user = some sessions) : sessions.Nonempty :=
    Finset.nonempty_iff_ne_empty.mpr fun empty => represents.nonempty user (empty ▸ found)
  refine ⟨fun user => ?_, fun user sessions found => ⟨filled user sessions found, ?_⟩,
    fun session => ?_⟩
  · cases found : tables.users user with
    | none =>
      refine ⟨nofun, fun ⟨session, entry⟩ => ?_⟩
      have member := (listed session user).mpr entry
      rw [found] at member
      exact absurd member (Finset.notMem_empty session)
    | some sessions =>
      obtain ⟨session, member⟩ := filled user sessions found
      exact ⟨fun _ => ⟨session, (listed session user).mp (found ▸ member)⟩, fun _ => rfl⟩
  · intro session
    rw [← listed, found, Option.getD_some]
  · rw [← last, ← represents.identities, remove]
    cases tables.identities[session]? with
    | none | some => rfl

end SessionTables

end Elura
