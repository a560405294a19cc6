import Elura.Basis.BigEndian
import Elura.Basis.Net
import Elura.Core.Ownership

/-!
Routes to World instances: the in-memory directory of the targets of each route, and the
target a request goes to. Without an ownership it is the target with the largest hash.
-/

namespace Elura

open Fallible

structure WorldRouteTarget where
  worldId : String
  address : SocketAddr
  deriving DecidableEq, Repr

def WorldRouteTarget.validate (target : WorldRouteTarget) : Except Error Unit :=
  if isBlank target.worldId ∨ target.address.port = 0 then
    .error (.invalidConfig "invalid World route target")
  else .ok ()

/-- What a route is looked up by: `RouteKey` here and `RouteScope` in the discovery. -/
structure RouteScope where
  regionId : UInt32
  realmId : UInt32
  route : UInt32
  deriving DecidableEq, Repr

structure MemoryWorldRouteDirectory where
  targets : RouteScope → Option (List WorldRouteTarget)

namespace MemoryWorldRouteDirectory

def new : MemoryWorldRouteDirectory where
  targets := fun _ => none

/-- The loop over the targets, with the identifiers and addresses it has seen. -/
def checkTargets : List String → List SocketAddr → List WorldRouteTarget → Except Error Unit
  | _, _, [] => .ok ()
  | identities, addresses, target :: targets => do
      target.validate
      if target.worldId ∈ identities ∨ target.address ∈ addresses then
        throw (.invalidConfig "duplicate World route target")
      checkTargets (target.worldId :: identities) (target.address :: addresses) targets

def setTargets (scope : RouteScope) (targets : List WorldRouteTarget) :
    Fallible MemoryWorldRouteDirectory Error Unit := do
  if scope.regionId = 0 ∨ scope.realmId = 0 then
    throw (.invalidConfig "World route region and realm must be positive")
  else if targets = [] then
    modify (fun directory => { targets := Function.update directory.targets scope none })
  else do
    liftM (checkTargets [] [] targets)
    modify (fun directory => { targets := Function.update directory.targets scope (some targets) })

def Accepts (scope : RouteScope) (targets : List WorldRouteTarget) : Prop :=
  ¬(scope.regionId = 0 ∨ scope.realmId = 0) ∧ checkTargets [] [] targets = .ok ()

/-- No targets are the absence of an entry. -/
def stored (targets : List WorldRouteTarget) : Option (List WorldRouteTarget) :=
  if targets = [] then none else some targets

theorem setTargets_ok {scope : RouteScope} {targets : List WorldRouteTarget}
    (accepts : Accepts scope targets) (directory : MemoryWorldRouteDirectory) :
    (setTargets scope targets).call directory =
      (.ok (), { targets := Function.update directory.targets scope (stored targets) }) := by
  rw [setTargets, if_neg accepts.1]
  by_cases empty : targets = []
  · rw [if_pos empty, stored, if_pos empty, call_modify]
  · rw [if_neg empty, stored, if_neg empty, accepts.2]
    rfl

theorem setTargets_error {scope : RouteScope} {targets : List WorldRouteTarget}
    (rejects : ¬Accepts scope targets) (directory : MemoryWorldRouteDirectory) :
    ∃ error, (setTargets scope targets).call directory = (.error error, directory) := by
  rw [setTargets]
  by_cases unset : scope.regionId = 0 ∨ scope.realmId = 0
  · rw [if_pos unset]
    exact ⟨_, rfl⟩
  · rw [if_neg unset]
    by_cases empty : targets = []
    · subst empty
      exact absurd ⟨unset, rfl⟩ rejects
    · rw [if_neg empty]
      cases checked : checkTargets [] [] targets with
      | error error => exact ⟨error, rfl⟩
      | ok => exact absurd ⟨unset, checked⟩ rejects

end MemoryWorldRouteDirectory

/-- The first eight bytes of the digest of a user and a target, as `u64::from_be_bytes`. -/
def routeHash (sha256 : List UInt8 → Vector UInt8 32) (userId : Int) (target : WorldRouteTarget) :
    Nat :=
  let bytes := putUint 8 (userId % 2 ^ 64).toNat ++ target.worldId.toUTF8.toList
  uintOfBytes ((sha256 bytes).toList.take 8)

/-- `Iterator::max_by_key`: the last of the elements with the largest key. -/
def maxByKey {α : Type} (key : α → Nat) : List α → Option α
  | [] => none
  | first :: rest =>
    some (rest.foldl (fun best next => if key best ≤ key next then next else best) first)

def selectTarget (sha256 : List UInt8 → Vector UInt8 32) (targets : List WorldRouteTarget)
    (ownership : Option Assignment) (userId : Int) : Except Error WorldRouteTarget :=
  match ownership with
  | some ownership =>
    match targets.find? (fun target => target.worldId = ownership.worldId) with
    | some target => .ok target
    | none => .error .unavailable
  | none =>
    match maxByKey (routeHash sha256 userId) targets with
    | some target => .ok target
    | none => .error .unavailable

def DistinctHashes (sha256 : List UInt8 → Vector UInt8 32) (userId : Int)
    (targets : List WorldRouteTarget) : Prop :=
  targets.Pairwise (fun left right => routeHash sha256 userId left ≠ routeHash sha256 userId right)

theorem selectTarget_tops {sha256 : List UInt8 → Vector UInt8 32} {userId : Int}
    {targets : List WorldRouteTarget} (distinct : DistinctHashes sha256 userId targets)
    (present : targets ≠ []) :
    ∃ best, selectTarget sha256 targets none userId = .ok best ∧
      Tops (fun left right => routeHash sha256 userId right < routeHash sha256 userId left)
        targets best := by
  cases targets with
  | nil => exact absurd rfl present
  | cons first rest =>
    refine ⟨_, rfl, ?_⟩
    have apart : ∀ left ∈ first :: rest, ∀ right ∈ first :: rest, left ≠ right →
        routeHash sha256 userId left ≠ routeHash sha256 userId right := by
      have symmetric : Std.Symm (fun left right : WorldRouteTarget =>
          routeHash sha256 userId left ≠ routeHash sha256 userId right) := ⟨fun _ _ => Ne.symm⟩
      exact fun left leftListed right rightListed => distinct.forall leftListed rightListed
    have scanned : Tops (fun left right : WorldRouteTarget =>
        routeHash sha256 userId right < routeHash sha256 userId left) (first :: rest)
        (rest.foldl (fun kept next => if decide (routeHash sha256 userId kept ≤
          routeHash sha256 userId next) then next else kept) first) := by
      apply Tops.of_scan (fun _ _ _ near far => far.trans near)
      intro next nextListed kept keptListed different
      have unequal := apart next nextListed kept keptListed different
      split
      · rename_i later
        have ordered := of_decide_eq_true later
        omega
      · rename_i earlier
        have ordered := of_decide_eq_false (Bool.eq_false_iff.mpr earlier)
        omega
    simpa only [decide_eq_true_eq] using scanned

/-- Neither the instance a shard prefers nor the target a user is routed to depends on the order
of the candidates, and both change only when the chosen one leaves or for a newcomer. -/
theorem placement_stable (sha256 : List UInt8 → Vector UInt8 32) :
    (∀ shard, StablePlacement (fun worlds => worlds.Nodup ∧ "" ∉ worlds) (preferredWorld shard)) ∧
    ∀ userId, StablePlacement (DistinctHashes sha256 userId)
      (fun targets => selectTarget sha256 targets none userId) := by
  constructor
  · intro shard
    refine stablePlacement_of_tops (prefers_asymm shard) ?_ ?_
    · intro worlds fit present
      exact preferredWorld_tops fit.1 fit.2 present
    · intro best chosen
      cases chosen
  · intro userId
    have asymmetric : ∀ left right : WorldRouteTarget,
        routeHash sha256 userId right < routeHash sha256 userId left →
          ¬routeHash sha256 userId left < routeHash sha256 userId right :=
      fun _ _ ahead => Nat.lt_asymm ahead
    refine stablePlacement_of_tops asymmetric ?_ ?_
    · intro targets fit present
      exact selectTarget_tops fit present
    · intro best chosen
      cases chosen

end Elura
