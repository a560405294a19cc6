import Elura.Basis.OrderedMap
import Elura.Basis.Runs
import Elura.Netcode.SequenceWindow

/-!
Locally predicted entities that wait for their authoritative identity, and what the caller of the
matcher has been told about each of them.
-/

namespace Elura.Netcode

open Fallible
open OrderedMap (getElem?_insert_ite getElem?_erase_ite)
open Std (ExtTreeMap TransOrd)

structure PredictedEntityConfig where
  capacity : Nat := 128
  timeoutTicks : Nat := 120

structure PredictedEntity (I : Type) where
  key : Nat
  temporaryEntity : I
  spawnedTick : Nat
  deriving DecidableEq

structure EntityMatch (I : Type) where
  key : Nat
  temporaryEntity : I
  authoritativeEntity : I
  ageTicks : Nat

structure PredictedEntityMatcher (I : Type) [Ord I] where
  config : PredictedEntityConfig
  pending : ExtTreeMap Nat (PredictedEntity I)
  temporary : ExtTreeMap I Nat

namespace PredictedEntityMatcher

variable {I : Type} [Ord I] [TransOrd I]

def remove (key : Nat) (predicted : PredictedEntity I) (matcher : PredictedEntityMatcher I) :
    PredictedEntityMatcher I :=
  { matcher with
    pending := matcher.pending.erase key
    temporary := matcher.temporary.erase predicted.temporaryEntity }

def register (key : Nat) (temporaryEntity : I) (spawnedTick : Nat) :
    Fallible (PredictedEntityMatcher I) NetcodeError Unit := do
  let matcher ← get
  if key = 0 ∨ spawnedTick = 0 then
    throw (.invalidInput "prediction key and spawn Tick must be positive")
  else if key ∈ matcher.pending ∨ temporaryEntity ∈ matcher.temporary then
    throw (.invalidInput "prediction key or temporary entity is already registered")
  else if matcher.config.capacity ≤ matcher.pending.size then
    throw .predictedEntityLimit
  else
    set { matcher with
      temporary := matcher.temporary.insert temporaryEntity key
      pending := matcher.pending.insert key { key, temporaryEntity, spawnedTick } }

def resolve (key : Nat) (authoritativeEntity : I) (currentTick : Nat) :
    Fallible (PredictedEntityMatcher I) NetcodeError (Option (EntityMatch I)) := do
  let matcher ← get
  match matcher.pending[key]? with
  | none => return none
  | some predicted =>
    if currentTick < predicted.spawnedTick then
      throw (.invalidInput "authoritative match Tick precedes predicted spawn")
    else if matcher.config.timeoutTicks < currentTick - predicted.spawnedTick then
      set (matcher.remove key predicted)
      return none
    else
      set (matcher.remove key predicted)
      return some { key, temporaryEntity := predicted.temporaryEntity, authoritativeEntity,
                    ageTicks := currentTick - predicted.spawnedTick }

def removeAll : List Nat → PredictedEntityMatcher I →
    List (PredictedEntity I) × PredictedEntityMatcher I
  | [], matcher => ([], matcher)
  | key :: rest, matcher =>
    match matcher.pending[key]? with
    | none => removeAll rest matcher
    | some predicted =>
      let (others, after) := removeAll rest (matcher.remove key predicted)
      (predicted :: others, after)

def expire (currentTick : Nat) (matcher : PredictedEntityMatcher I) :
    List (PredictedEntity I) × PredictedEntityMatcher I :=
  removeAll ((matcher.pending.toList.filter (fun entry =>
    matcher.config.timeoutTicks < currentTick - entry.2.spawnedTick)).map (·.1)) matcher

end PredictedEntityMatcher

/-- A matcher with its accepted registrations and with what its caller has been told: the
predictions of the returned matches and the expired ones. -/
structure PredictionLedger (I : Type) [Ord I] where
  matcher : PredictedEntityMatcher I
  registered : List (PredictedEntity I) := []
  matched : List (PredictedEntity I) := []
  expired : List (PredictedEntity I) := []

inductive PredictionCall (I : Type)
  | register (key : Nat) (temporaryEntity : I) (spawnedTick : Nat)
  | resolve (key : Nat) (authoritativeEntity : I) (currentTick : Nat)
  | expire (currentTick : Nat)

namespace PredictionLedger

variable {I : Type} [Ord I] [TransOrd I] [DecidableEq I]

def start (config : PredictedEntityConfig) : PredictionLedger I :=
  { matcher := { config, pending := ∅, temporary := ∅ } }

def step (ledger : PredictionLedger I) : PredictionCall I → Option (PredictionLedger I)
  | .register key temporaryEntity spawnedTick =>
    match (PredictedEntityMatcher.register key temporaryEntity spawnedTick).call ledger.matcher with
    | (.error _, _) => some ledger
    | (.ok _, matcher) => some { ledger with
        matcher, registered := ledger.registered ++ [{ key, temporaryEntity, spawnedTick }] }
  | .resolve key authoritativeEntity currentTick =>
    match (PredictedEntityMatcher.resolve key authoritativeEntity currentTick).call
        ledger.matcher with
    | (.error _, matcher) | (.ok none, matcher) => some { ledger with matcher }
    | (.ok (some found), matcher) => some { ledger with
        matcher
        matched := ledger.matched ++ [{ key := found.key, temporaryEntity := found.temporaryEntity
                                        spawnedTick := currentTick - found.ageTicks }] }
  | .expire currentTick =>
    let (expired, matcher) := ledger.matcher.expire currentTick
    some { ledger with matcher, expired := ledger.expired ++ expired }

/-- No match arrives for a prediction that is older than the timeout and still pending. -/
def timely (ledger : PredictionLedger I) : PredictionCall I → Bool
  | .resolve key _ currentTick => ledger.matcher.pending[key]?.all (fun predicted =>
      currentTick - predicted.spawnedTick ≤ ledger.matcher.config.timeoutTicks)
  | _ => true

abbrev Reachable (allowed : PredictionLedger I → PredictionCall I → Prop)
    (first : PredictionLedger I) : PredictionLedger I → Prop :=
  RunWhen allowed (fun before call after => before.step call = some after) first

def held (pending : ExtTreeMap Nat (PredictedEntity I)) (predicted : PredictedEntity I) : Nat :=
  if pending[predicted.key]? = some predicted then 1 else 0

omit [Ord I] [TransOrd I] in
/-- Two maps that differ by one entry. -/
theorem held_added {small large : ExtTreeMap Nat (PredictedEntity I)} (entry : PredictedEntity I)
    (absent : small[entry.key]? = none) (present : large[entry.key]? = some entry)
    (others : ∀ other, entry.key ≠ other → large[other]? = small[other]?)
    (predicted : PredictedEntity I) :
    held large predicted = held small predicted + [entry].count predicted := by
  simp only [held, List.count_singleton, beq_iff_eq]
  by_cases same : entry.key = predicted.key
  · simp [← same, absent, present]
  · have different : entry ≠ predicted := fun equal => same (congrArg _ equal)
    simp [others _ same, different]

structure Accounted (ledger : PredictionLedger I) : Prop where
  keyed : ∀ key (entry : PredictedEntity I), ledger.matcher.pending[key]? = some entry →
    entry.key = key
  counted : ∀ predicted, ledger.registered.count predicted =
    held ledger.matcher.pending predicted + ledger.matched.count predicted +
      ledger.expired.count predicted

variable {ledger after : PredictionLedger I} {key : Nat} {entry : PredictedEntity I}

theorem Accounted.remove (accounted : Accounted ledger)
    (found : ledger.matcher.pending[key]? = some entry) (matched expired : List (PredictedEntity I))
    (told : ∀ predicted, matched.count predicted + expired.count predicted =
      [entry].count predicted + (ledger.matched.count predicted + ledger.expired.count predicted)) :
    Accounted { ledger with matcher := ledger.matcher.remove key entry, matched, expired } := by
  obtain ⟨keyed, counted⟩ := accounted
  obtain rfl := keyed key entry found
  constructor
  · intro other kept stored
    simp only [PredictedEntityMatcher.remove, getElem?_erase_ite] at stored
    split_ifs at stored
    exact keyed other kept stored
  · intro predicted
    have erased := held_added entry ExtTreeMap.getElem?_erase_self found
      (fun _ different => by rw [getElem?_erase_ite, if_neg different]) predicted
    have all := told predicted
    simp only [PredictedEntityMatcher.remove, counted predicted]
    omega

theorem Accounted.removeAll (keys : List Nat) (ledger : PredictionLedger I)
    (accounted : Accounted ledger) :
    Accounted { ledger with
      matcher := (ledger.matcher.removeAll keys).2
      expired := ledger.expired ++ (ledger.matcher.removeAll keys).1 } := by
  induction keys generalizing ledger with
  | nil => simpa [PredictedEntityMatcher.removeAll] using accounted
  | cons key rest ih =>
    simp only [PredictedEntityMatcher.removeAll]
    cases found : ledger.matcher.pending[key]? with
    | none => exact ih ledger accounted
    | some entry =>
      simpa using ih _ (accounted.remove found ledger.matched (ledger.expired ++ [entry])
        (fun _ => by rw [List.count_append]; omega))

theorem Accounted.step {call : PredictionCall I} (accounted : Accounted ledger)
    (timely : ledger.timely call = true) (stepped : ledger.step call = some after) :
    Accounted after := by
  cases call with
  | register key temporaryEntity spawnedTick =>
    simp only [PredictionLedger.step, PredictedEntityMatcher.register, call_bind, call_get,
      call_ite, call_throw, call_set] at stepped
    split_ifs at stepped with zero known full
    all_goals cases stepped
    iterate 3 exact accounted
    have absent : ledger.matcher.pending[key]? = none :=
      ExtTreeMap.getElem?_eq_none (fun present => known (.inl present))
    constructor
    · intro other kept stored
      simp only [getElem?_insert_ite] at stored
      split_ifs at stored with same
      · cases stored
        exact same
      · exact accounted.keyed other kept stored
    · intro predicted
      have inserted : held _ predicted = held ledger.matcher.pending predicted + _ :=
        held_added ⟨key, temporaryEntity, spawnedTick⟩ absent ExtTreeMap.getElem?_insert_self
          (fun _ different => by rw [getElem?_insert_ite, if_neg different]) predicted
      simp only [List.count_append, accounted.counted predicted] at inserted ⊢
      omega
  | resolve key authoritativeEntity currentTick =>
    simp only [PredictionLedger.step, PredictedEntityMatcher.resolve, call_bind,
      call_get] at stepped
    cases found : ledger.matcher.pending[key]? with
    | none =>
      simp only [found, call_pure] at stepped
      cases stepped
      exact accounted
    | some entry =>
      obtain ⟨own, temporaryEntity, spawnedTick⟩ := entry
      obtain rfl : own = key := accounted.keyed key _ found
      simp only [found, call_ite, call_throw, call_bind, call_set, call_pure] at stepped
      rw [PredictionLedger.timely, found, Option.all_some, decide_eq_true_eq] at timely
      split_ifs at stepped with early late
      · cases stepped
        exact accounted
      · exact absurd late (Nat.not_lt.mpr timely)
      · cases stepped
        refine accounted.remove found _ _ (fun predicted => ?_)
        simp only [List.count_append, Nat.sub_sub_self (Nat.not_lt.mp early)]
        omega
  | expire currentTick =>
    cases stepped
    exact accounted.removeAll _ ledger

end PredictionLedger

end Elura.Netcode
