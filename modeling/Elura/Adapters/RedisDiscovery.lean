import Elura.Core.ErrorEnvelope
import Elura.Gateway.Routing

/-!
World discovery through Redis: every round reads the registrations, resolves their addresses and
hands the targets of each scope to the route directory, scope by scope.
-/

namespace Elura

open List

structure WorldRegistration where
  worldId : String
  regionId : UInt32
  realmId : UInt32
  route : UInt32
  address : String
  deriving DecidableEq, Repr

def IpAddr.isUnspecified : IpAddr → Bool
  | .v4 octets => octets.toList.all (· == 0)
  | .v6 octets => octets.toList.all (· == 0)

/-- What the code asks of the world around it: reading an address, resolving a host name, and
the registration in a stored value. -/
structure DiscoveryLibrary where
  parseSocketAddr : String → Option SocketAddr
  lookupHost : String → Option (List SocketAddr)
  parseLease : List UInt8 → Option WorldRegistration

def rsplitColon (text : String) : Option (List Char × List Char) :=
  match text.toList.reverse.span (· ≠ ':') with
  | (_, []) => none
  | (after, _ :: before) => some (before.reverse, after.reverse)

namespace WorldRegistration

def validate (library : DiscoveryLibrary) (registration : WorldRegistration) :
    Except Error Unit :=
  let validId := registration.worldId ≠ "" ∧ registration.worldId.toUTF8.data.toList.all
    (fun byte => isAsciiAlphanumeric byte || byte == 45 || byte == 95 || byte == 46)
  let unspecifiedAddress := (library.parseSocketAddr registration.address).any
    (fun address => address.ip.isUnspecified)
  let validAddress := (rsplitColon registration.address).any
    (fun (host, port) => host ≠ [] && (parseUnsigned 65535 port).any (0 < ·))
  if ¬validId ∨ registration.regionId = 0 ∨ registration.realmId = 0 ∨ ¬validAddress ∨
      unspecifiedAddress then
    .error (.invalidConfig "invalid World registration")
  else .ok ()

def scope (registration : WorldRegistration) : RouteScope where
  regionId := registration.regionId
  realmId := registration.realmId
  route := registration.route

def resolve (library : DiscoveryLibrary) (registration : WorldRegistration) :
    Option (RouteScope × WorldRouteTarget) := do
  let addresses ← library.lookupHost registration.address
  let address ← addresses.find? (fun address => !address.ip.isUnspecified && 0 < address.port)
  return (registration.scope, { worldId := registration.worldId, address })

end WorldRegistration

def registeredTargets (library : DiscoveryLibrary) (payloads : List (List UInt8)) :
    List (RouteScope × WorldRouteTarget) :=
  (payloads.filterMap (fun payload => (library.parseLease payload).filter
    (fun registration => registration.validate library = .ok ()))).filterMap
      (WorldRegistration.resolve library)

/-- The order of addresses: IPv4 first, then by address and port. -/
def SocketAddr.rank (address : SocketAddr) : Nat :=
  match address.ip with
  | .v4 octets => uintOfBytes octets.toList * 2 ^ 16 + address.port.toNat
  | .v6 octets => 2 ^ 144 + uintOfBytes octets.toList * 2 ^ 16 + address.port.toNat

def targetBefore (left right : WorldRouteTarget) : Prop :=
  left.worldId < right.worldId ∨
    left.worldId = right.worldId ∧ left.address.rank ≤ right.address.rank

instance : DecidableRel targetBefore :=
  fun _ _ => inferInstanceAs (Decidable (_ ∨ _))

def scopeBefore (left right : RouteScope) : Prop :=
  left.regionId < right.regionId ∨ left.regionId = right.regionId ∧
    (left.realmId < right.realmId ∨ left.realmId = right.realmId ∧ left.route ≤ right.route)

instance : DecidableRel scopeBefore :=
  fun _ _ => inferInstanceAs (Decidable (_ ∨ _))

/-- A `BTreeSet` of scopes, as the list that it iterates over. -/
def scopeSet (scopes : List RouteScope) : List RouteScope :=
  scopes.dedup.insertionSort scopeBefore

theorem mem_scopeSet {scopes : List RouteScope} {scope : RouteScope} :
    scope ∈ scopeSet scopes ↔ scope ∈ scopes := by
  rw [scopeSet, mem_insertionSort, mem_dedup]

/-- The sorted targets of one scope; `completed` is in the order in which names were resolved. -/
def groupOf (completed : List (RouteScope × WorldRouteTarget)) (scope : RouteScope) :
    List WorldRouteTarget :=
  ((completed.filter (fun resolved => resolved.1 = scope)).map Prod.snd).insertionSort targetBefore

theorem groupOf_perm (completed : List (RouteScope × WorldRouteTarget)) (scope : RouteScope) :
    (groupOf completed scope).Perm
      ((completed.filter (fun resolved => resolved.1 = scope)).map Prod.snd) :=
  List.perm_insertionSort _ _

theorem mem_of_groupOf {completed : List (RouteScope × WorldRouteTarget)} {scope : RouteScope}
    (present : groupOf completed scope ≠ []) : scope ∈ completed.map Prod.fst := by
  obtain ⟨target, member⟩ := exists_mem_of_ne_nil _ present
  obtain ⟨⟨found, _⟩, listed, _⟩ := mem_map.mp ((groupOf_perm completed scope).mem_iff.mp member)
  obtain ⟨within, same⟩ := mem_filter.mp listed
  exact mem_map.mpr ⟨_, within, of_decide_eq_true same⟩

structure DiscoveryState where
  knownScopes : List RouteScope
  directory : MemoryWorldRouteDirectory

namespace RedisDiscovery

open MemoryWorldRouteDirectory

variable {rounds : List Round} {scope : RouteScope}
  {completed : List (RouteScope × WorldRouteTarget)}

/-- The loop over the scopes, which ends with the first one that is rejected. -/
def replaceTargets (completed : List (RouteScope × WorldRouteTarget)) :
    List RouteScope → Fallible MemoryWorldRouteDirectory Error Unit
  | [] => pure ()
  | scope :: scopes => do
      setTargets scope (groupOf completed scope)
      replaceTargets completed scopes

def scopesOf (completed : List (RouteScope × WorldRouteTarget)) : List RouteScope :=
  scopeSet (completed.map Prod.fst)

def union (state : DiscoveryState) (completed : List (RouteScope × WorldRouteTarget)) :
    List RouteScope :=
  scopeSet (state.knownScopes ++ scopesOf completed)

/-- The part of `synchronize` that follows the resolution of the names. -/
def replace (completed : List (RouteScope × WorldRouteTarget)) (state : DiscoveryState) :
    Except Error Unit × DiscoveryState :=
  match (replaceTargets completed (union state completed)).call state.directory with
  | (.ok _, directory) => (.ok (), { knownScopes := scopesOf completed, directory })
  | (.error error, directory) => (.error error, { state with directory })

/-- What a call of `synchronize` meets: Redis fails, or it returns the stored values. The names
in them are resolved in any order. -/
inductive Round
  | unavailable (error : Error)
  | answered (payloads : List (List UInt8)) (completed : List (RouteScope × WorldRouteTarget))

def Round.Genuine (library : DiscoveryLibrary) : Round → Prop
  | .unavailable _ => True
  | .answered payloads completed => completed.Perm (registeredTargets library payloads)

def Round.scopes : Round → List RouteScope
  | .unavailable _ => []
  | .answered _ completed => scopesOf completed

def synchronize (state : DiscoveryState) : Round → Except Error Unit × DiscoveryState
  | .unavailable error => (.error error, state)
  | .answered _ completed => replace completed state

def initial : DiscoveryState where
  knownScopes := []
  directory := .new

def after (rounds : List Round) : DiscoveryState :=
  rounds.foldl (fun state round => (synchronize state round).2) initial

/-- The loop has come through `done`, and has ended there or been rejected at the next scope. -/
structure Replaced (completed : List (RouteScope × WorldRouteTarget))
    (directory later : MemoryWorldRouteDirectory) (done rest : List RouteScope)
    (result : Except Error Unit) : Prop where
  replaced : ∀ scope ∈ done, later.targets scope = stored (groupOf completed scope)
  kept : ∀ scope ∉ done, later.targets scope = directory.targets scope
  stopped : rest = [] ∧ result = .ok () ∨ ∃ error scope scopes, rest = scope :: scopes ∧
    ¬Accepts scope (groupOf completed scope) ∧ result = .error error

theorem replaceTargets_replaced (completed : List (RouteScope × WorldRouteTarget))
    (scopes : List RouteScope) (directory : MemoryWorldRouteDirectory) :
    ∃ done rest, scopes = done ++ rest ∧
      Replaced completed directory ((replaceTargets completed scopes).call directory).2 done rest
        ((replaceTargets completed scopes).call directory).1 := by
  induction scopes generalizing directory with
  | nil =>
    refine ⟨[], [], rfl, ?_, fun _ _ => rfl, .inl ⟨rfl, rfl⟩⟩
    intro scope listed
    cases listed
  | cons scope scopes ih =>
    rw [replaceTargets, Fallible.call_bind]
    by_cases accepts : Accepts scope (groupOf completed scope)
    · rw [setTargets_ok accepts]
      obtain ⟨done, rest, split, replaced, kept, stopped⟩ := ih
        { targets := Function.update directory.targets scope (stored (groupOf completed scope)) }
      refine ⟨scope :: done, rest, congrArg _ split, ?_, ?_, stopped⟩
      · intro other listed
        by_cases again : other ∈ done
        · exact replaced other again
        · cases (mem_cons.mp listed).resolve_right again
          exact (kept scope again).trans (Function.update_self ..)
      · intro other unlisted
        obtain ⟨apart, new⟩ := not_or.mp (mt mem_cons.mpr unlisted)
        exact (kept other new).trans (Function.update_of_ne apart ..)
    · obtain ⟨error, rejected⟩ := setTargets_error accepts directory
      rw [rejected]
      refine ⟨[], scope :: scopes, rfl, ?_, fun _ _ => rfl,
        .inr ⟨error, scope, scopes, rfl, accepts, rfl⟩⟩
      intro scope listed
      cases listed

/-- What a round that Redis answers does, whether or not it comes to its end. -/
theorem replace_replaced (completed : List (RouteScope × WorldRouteTarget))
    (state : DiscoveryState) : ∃ done rest, union state completed = done ++ rest ∧
      Replaced completed state.directory (replace completed state).2.directory done rest
        (replace completed state).1 ∧
      ((replace completed state).1 = .ok () ∧ rest = [] ∧
          (replace completed state).2.knownScopes = scopesOf completed ∨
        (replace completed state).1 ≠ .ok () ∧
          (replace completed state).2.knownScopes = state.knownScopes) := by
  obtain ⟨done, rest, split, reached⟩ :=
    replaceTargets_replaced completed (union state completed) state.directory
  refine ⟨done, rest, split, ?_⟩
  unfold replace
  rcases called : (replaceTargets completed (union state completed)).call state.directory
    with ⟨_ | _, directory⟩
  · rw [called] at reached
    exact ⟨reached, .inr ⟨nofun, rfl⟩⟩
  · rw [called] at reached
    rcases reached.stopped with ⟨ended, _⟩ | ⟨error, scope, scopes, _, _, failed⟩
    · exact ⟨reached, .inl ⟨rfl, ended, rfl⟩⟩
    · cases failed

/-- A call has failed that had found registrations of the scope. -/
def FailedWith (rounds : List Round) (scope : RouteScope) : Prop :=
  ∃ earlier round later, rounds = earlier ++ round :: later ∧
    (synchronize (after earlier) round).1 ≠ .ok () ∧ scope ∈ round.scopes

theorem FailedWith.append (failed : FailedWith rounds scope) (round : Round) :
    FailedWith (rounds ++ [round]) scope := by
  obtain ⟨earlier, culprit, later, rfl, failed⟩ := failed
  exact ⟨earlier, culprit, later ++ [round], by simp, failed⟩

theorem after_append (rounds : List Round) (round : Round) :
    after (rounds ++ [round]) = (synchronize (after rounds) round).2 :=
  List.foldl_concat ..

theorem stored_ne_none {targets : List WorldRouteTarget} (present : stored targets ≠ none) :
    targets ≠ [] := by
  intro empty
  exact present (if_pos empty)

/-- Only scopes that are known, or that a failed call had found, have targets. -/
def Covered (rounds : List Round) : Prop :=
  ∀ scope, (after rounds).directory.targets scope ≠ none →
    scope ∈ (after rounds).knownScopes ∨ FailedWith rounds scope

theorem Covered.append (covered : Covered rounds) (round : Round) :
    Covered (rounds ++ [round]) := by
  intro scope present
  rw [after_append] at present ⊢
  cases round with
  | unavailable error =>
    exact (covered scope present).imp_right (FailedWith.append · (.unavailable error))
  | answered payloads completed =>
    obtain ⟨done, rest, split, reached, ended⟩ := replace_replaced completed (after rounds)
    by_cases replaced : scope ∈ done
    · have found : scope ∈ scopesOf completed ∨ scope ∈ (after rounds).knownScopes := by
        have member := split ▸ mem_append_left rest replaced
        exact (mem_append.mp (mem_scopeSet.mp member)).symm
      rcases ended with ⟨_, _, known⟩ | ⟨failed, known⟩
      · left
        change scope ∈ (replace completed (after rounds)).2.knownScopes
        rw [known]
        have filled := stored_ne_none (reached.replaced scope replaced ▸ present)
        exact mem_scopeSet.mpr (mem_of_groupOf filled)
      · rcases found with new | old
        · exact .inr ⟨rounds, .answered payloads completed, [], rfl, failed, new⟩
        · exact .inl (known ▸ old)
    · have before := covered scope (reached.kept scope replaced ▸ present)
      refine before.elim (fun old => ?_) (fun failed => .inr (failed.append _))
      rcases ended with ⟨_, finished, _⟩ | ⟨_, known⟩
      · refine absurd ?_ replaced
        rw [finished, append_nil] at split
        exact split ▸ mem_scopeSet.mpr (mem_append_left _ old)
      · exact .inl (known ▸ old)

theorem covered (rounds : List Round) : Covered rounds := by
  induction rounds using reverseRecOn with
  | nil => exact fun scope present => absurd rfl present
  | append_singleton _ round ih => exact ih.append round

/-- A call that returns `Ok` leaves the targets of every scope that it knew or found as they are
registered. -/
theorem replace_ok {state : DiscoveryState} (succeeded : (replace completed state).1 = .ok ())
    (listed : scope ∈ state.knownScopes ∨ scope ∈ scopesOf completed ∨
      state.directory.targets scope = none) :
    (replace completed state).2.directory.targets scope = stored (groupOf completed scope) := by
  obtain ⟨done, rest, split, reached, ended⟩ := replace_replaced completed state
  rcases ended with ⟨_, finished, _⟩ | ⟨failed, _⟩
  · rw [finished, append_nil] at split
    by_cases replaced : scope ∈ done
    · exact reached.replaced scope replaced
    · have unlisted := mt mem_scopeSet.mpr (split ▸ replaced)
      rw [mem_append, not_or] at unlisted
      obtain ⟨unknown, unfound⟩ := unlisted
      rw [reached.kept scope replaced, (listed.resolve_left unknown).resolve_left unfound]
      refine (if_pos ?_).symm
      by_contra filled
      exact unfound (mem_scopeSet.mpr (mem_of_groupOf filled))
  · exact absurd succeeded failed

theorem replace_before {state : DiscoveryState} {earlier later : List RouteScope}
    (order : union state completed = earlier ++ scope :: later)
    (accepted : ∀ other ∈ earlier ++ [scope], Accepts other (groupOf completed other)) :
    (replace completed state).2.directory.targets scope = stored (groupOf completed scope) := by
  obtain ⟨done, rest, split, reached, _⟩ := replace_replaced completed state
  refine reached.replaced scope ?_
  have both : done ++ rest = (earlier ++ [scope]) ++ later := by
    rw [← split, order, append_assoc, singleton_append]
  rcases append_eq_append_iff.mp both with ⟨missing, whole, left⟩ | ⟨more, whole, _⟩
  · cases missing with
    | nil =>
      rw [append_nil] at whole
      exact whole ▸ mem_append_right _ (mem_singleton_self scope)
    | cons next =>
      have ready := accepted next (whole ▸ mem_append_right _ (mem_cons_self ..))
      rcases reached.stopped with ⟨ended, _⟩ | ⟨_, refused, scopes, same, rejects, _⟩
      · cases ended.symm.trans left
      · cases same.symm.trans left
        exact absurd ready rejects
  · rw [whole]
    exact mem_append_left _ (mem_append_right _ (mem_singleton_self scope))

def registeredFor (library : DiscoveryLibrary) (payloads : List (List UInt8))
    (scope : RouteScope) : List WorldRouteTarget :=
  ((registeredTargets library payloads).filter (fun resolved => resolved.1 = scope)).map Prod.snd

def UpToDate (library : DiscoveryLibrary) (payloads : List (List UInt8))
    (directory : MemoryWorldRouteDirectory) (scope : RouteScope) : Prop :=
  ∃ targets, directory.targets scope = stored targets ∧
    targets.Perm (registeredFor library payloads scope)

theorem upToDate_of_stored {library : DiscoveryLibrary} {payloads : List (List UInt8)}
    (genuine : (Round.answered payloads completed).Genuine library)
    {directory : MemoryWorldRouteDirectory}
    (found : directory.targets scope = stored (groupOf completed scope)) :
    UpToDate library payloads directory scope :=
  ⟨_, found, (groupOf_perm completed scope).trans ((genuine.filter _).map _)⟩

theorem discovery_converges {library : DiscoveryLibrary} {payloads : List (List UInt8)}
    (genuine : (Round.answered payloads completed).Genuine library) :
    ((∀ scope, FailedWith rounds scope → scope ∈ (after rounds).knownScopes ∨
          scope ∈ scopesOf completed) →
        (synchronize (after rounds) (.answered payloads completed)).1 = .ok () →
        ∀ scope, UpToDate library payloads
          (after (rounds ++ [.answered payloads completed])).directory scope) ∧
      ∀ earlier scope later, union (after rounds) completed = earlier ++ scope :: later →
        (∀ other ∈ earlier ++ [scope], Accepts other (groupOf completed other)) →
        UpToDate library payloads
          (after (rounds ++ [.answered payloads completed])).directory scope := by
  rw [after_append]
  constructor
  · intro caught succeeded scope
    refine upToDate_of_stored genuine (replace_ok succeeded ?_)
    by_cases absent : (after rounds).directory.targets scope = none
    · exact .inr (.inr absent)
    · rcases covered rounds scope absent with known | failed
      · exact .inl known
      · exact (caught scope failed).imp_right .inl
  · intro earlier scope later order accepted
    exact upToDate_of_stored genuine (replace_before order accepted)

def sampleScope (realmId : UInt32) : RouteScope where
  regionId := 1
  realmId := realmId
  route := 0

def sampleTarget (worldId : String) (host : UInt8) : WorldRouteTarget where
  worldId := worldId
  address := { ip := .v4 #v[10, 0, 0, host], port := 7000 }

/-- Four worlds, two of which have registered one address for one scope. -/
def sampleLibrary : DiscoveryLibrary where
  parseSocketAddr _ := none
  lookupHost address :=
    if address = "one:7000" then some [(sampleTarget "" 1).address]
    else if address = "two:7000" then some [(sampleTarget "" 2).address]
    else some [(sampleTarget "" 3).address]
  parseLease
    | [1] => some ⟨"a", 1, 1, 0, "one:7000"⟩
    | [2] => some ⟨"b", 1, 2, 0, "two:7000"⟩
    | [3] => some ⟨"c", 1, 2, 0, "two:7000"⟩
    | [4] => some ⟨"d", 1, 3, 0, "three:7000"⟩
    | _ => none

def sampleRound (payloads : List (List UInt8)) : Round :=
  .answered payloads (registeredTargets sampleLibrary payloads)

theorem discovery_converges_departure :
    (synchronize initial (sampleRound [[1], [4]])).1 = .ok () ∧
      ∀ scope, UpToDate sampleLibrary [[4]]
        (after [sampleRound [[1], [4]], sampleRound [[4]]]).directory scope := by
  have succeeded : (synchronize initial (sampleRound [[1], [4]])).1 = .ok () := by decide +kernel
  refine ⟨succeeded, (@discovery_converges [sampleRound [[1], [4]]] _ sampleLibrary [[4]]
    (.refl _)).1 ?_ (by decide +kernel)⟩
  intro scope failed
  obtain ⟨earlier, round, later, split, failed, _⟩ := failed
  cases earlier with
  | nil =>
    cases split
    exact absurd succeeded failed
  | cons _ earlier => cases earlier <;> cases split

/-- The rejected scope comes between two others: the first one is brought up to date, the last one
is not, and when all registrations are gone nobody empties the first one again. -/
theorem rejected_scope_leaves_others :
    Accepts (sampleScope 3) (groupOf (registeredTargets sampleLibrary [[1], [2], [3], [4]])
        (sampleScope 3)) ∧
      ¬UpToDate sampleLibrary [[1], [2], [3], [4]]
        (after [sampleRound [[1], [2], [3], [4]]]).directory (sampleScope 3) ∧
      (synchronize (after [sampleRound [[1], [2], [3], [4]]]) (sampleRound [])).1 = .ok () ∧
      ¬UpToDate sampleLibrary []
        (after [sampleRound [[1], [2], [3], [4]], sampleRound []]).directory (sampleScope 1) := by
  refine ⟨⟨by decide, by decide +kernel⟩, ?_, by decide +kernel, ?_⟩
  · rintro ⟨targets, found, perm⟩
    have absent : (after [sampleRound [[1], [2], [3], [4]]]).directory.targets (sampleScope 3) =
        none := by decide +kernel
    have registered : registeredFor sampleLibrary [[1], [2], [3], [4]] (sampleScope 3) =
        [sampleTarget "d" 3] := by decide +kernel
    rw [absent] at found
    cases targets with
    | nil => exact absurd (perm.symm.eq_nil ▸ registered) (by decide)
    | cons => cases found
  · rintro ⟨targets, found, perm⟩
    have present : (after [sampleRound [[1], [2], [3], [4]], sampleRound []]).directory.targets
        (sampleScope 1) = some [sampleTarget "a" 1] := by decide +kernel
    rw [perm.eq_nil] at found
    cases found

end RedisDiscovery

end Elura
