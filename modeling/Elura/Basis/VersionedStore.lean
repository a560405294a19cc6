import Mathlib.Data.List.Chain
import Mathlib.Data.List.Pairwise

/-!
A store of versioned objects with optimistic concurrency: a draft is accepted only while the
version it was made from is the newest one. So whatever each writer keeps between the two holds
between consecutive versions of every object. Fencing tokens are such a law.
-/

namespace Elura

open List

/-- Every version an object has had, oldest first. An absent object has none. -/
structure VersionedStore (κ ν : Type) where
  history : κ → List ν

/-- What a writer asks for: a new object, or another version in place of the one it read. -/
inductive Draft (ν : Type)
  | create (value : ν)
  | replace (version : Nat) (value : ν)

def Draft.value {ν : Type} : Draft ν → ν
  | .create value => value
  | .replace _ value => value

namespace VersionedStore

variable {κ ν : Type}

def empty : VersionedStore κ ν where
  history := fun _ => []

def latest (store : VersionedStore κ ν) (key : κ) : Option (Nat × ν) :=
  (store.history key).getLast?.map (fun value => ((store.history key).length, value))

theorem latest_eq_some {store : VersionedStore κ ν} {key : κ} {version : Nat} {value : ν}
    (found : store.latest key = some (version, value)) :
    (store.history key).length = version ∧ (store.history key)[version - 1]? = some value := by
  obtain ⟨newest, last, same⟩ := Option.map_eq_some_iff.mp found
  simp only [Prod.mk.injEq] at same
  obtain ⟨rfl, rfl⟩ := same
  exact ⟨rfl, by rw [← getLast?_eq_getElem?]; exact last⟩

variable [DecidableEq κ]

def append (store : VersionedStore κ ν) (key : κ) (value : ν) : VersionedStore κ ν where
  history := Function.update store.history key (store.history key ++ [value])

theorem history_append (store : VersionedStore κ ν) (key other : κ) (value : ν) :
    (store.append key value).history other =
      if other = key then store.history key ++ [value] else store.history other := by
  simp only [append, Function.update_apply]

/-- Versions are only added, so a version that has been read stays what it was. -/
theorem getElem?_append {store : VersionedStore κ ν} {key other : κ} {value held : ν}
    {index : Nat} (found : (store.history other)[index]? = some held) :
    ((store.append key value).history other)[index]? = some held := by
  rw [history_append]
  split
  · rename_i same
    subst same
    rw [List.getElem?_append_left (List.getElem?_eq_some_iff.mp found).1]
    exact found
  · exact found

def Accepts (store : VersionedStore κ ν) (key : κ) : Draft ν → Prop
  | .create _ => store.history key = []
  | .replace version _ => (store.history key).length = version ∧ version ≠ 0

instance (store : VersionedStore κ ν) (key : κ) (draft : Draft ν) :
    Decidable (store.Accepts key draft) :=
  match draft with
  | .create _ => decidable_of_iff ((store.history key).isEmpty = true) List.isEmpty_iff
  | .replace _ _ => inferInstanceAs (Decidable (_ ∧ _))

def commit (store : VersionedStore κ ν) (key : κ) (draft : Draft ν) :
    Option (VersionedStore κ ν) :=
  if store.Accepts key draft then some (store.append key draft.value) else none

theorem commit_eq_some {store after : VersionedStore κ ν} {key : κ} {draft : Draft ν}
    (committed : store.commit key draft = some after) :
    store.Accepts key draft ∧ after = store.append key draft.value := by
  simp only [commit] at committed
  split at committed
  · rename_i accepted
    exact ⟨accepted, (Option.some.inj committed).symm⟩
  · cases committed

section Laws

variable (opens : κ → ν → Prop) (follows : κ → ν → ν → Prop)
variable {key : κ} {draft : Draft ν}

/-- A law on the first version of each object and on each later one, given the one before. -/
structure Lawful (store : VersionedStore κ ν) : Prop where
  opens : ∀ key value, (store.history key).head? = some value → opens key value
  follows : ∀ key, (store.history key).IsChain (follows key)

/-- A draft that obeys the law if the version it was made from is the newest one. -/
def Drafted (store : VersionedStore κ ν) (key : κ) : Draft ν → Prop
  | .create value => opens key value
  | .replace version value =>
    ∃ base, (store.history key)[version - 1]? = some base ∧ follows key base value

variable {opens follows} {store : VersionedStore κ ν}

omit [DecidableEq κ] in
theorem Lawful.empty : Lawful opens follows (.empty : VersionedStore κ ν) where
  opens := by
    intro key value found
    cases found
  follows := fun _ => .nil

section

variable (drafted : Drafted opens follows store key draft)
include drafted

theorem Drafted.append {other : κ} {value : ν} :
    Drafted opens follows (store.append other value) key draft := by
  cases draft with
  | create => exact drafted
  | replace =>
    obtain ⟨base, found, next⟩ := drafted
    exact ⟨base, getElem?_append found, next⟩

omit [DecidableEq κ] in
theorem Drafted.newest
    (accepted : store.Accepts key draft) :
    (store.history key = [] ∧ opens key draft.value) ∨
      ∃ base, (store.history key).getLast? = some base ∧ follows key base draft.value := by
  cases draft with
  | create => exact .inl ⟨accepted, drafted⟩
  | replace =>
    obtain ⟨base, found, next⟩ := drafted
    refine .inr ⟨base, ?_, next⟩
    rw [getLast?_eq_getElem?, accepted.1]
    exact found

theorem Drafted.commit {other : κ} {accepted : Draft ν} {after : VersionedStore κ ν}
    (committed : store.commit other accepted = some after) :
    Drafted opens follows after key draft := by
  obtain ⟨-, rfl⟩ := commit_eq_some committed
  exact drafted.append

end

/-- Every accepted draft keeps the law. -/
theorem Lawful.commit {after : VersionedStore κ ν} (lawful : Lawful opens follows store)
    (drafted : Drafted opens follows store key draft)
    (committed : store.commit key draft = some after) : Lawful opens follows after := by
  obtain ⟨accepted, rfl⟩ := commit_eq_some committed
  have source := drafted.newest accepted
  constructor
  · intro other first found
    rw [history_append] at found
    split at found
    · rename_i same
      subst same
      rcases source with ⟨absent, opened⟩ | ⟨base, newest, -⟩
      · rw [absent] at found
        cases found
        exact opened
      · apply lawful.opens other first
        rw [head?_append_of_ne_nil] at found
        · exact found
        · exact ne_nil_of_mem (mem_of_getLast? newest)
    · exact lawful.opens other first found
  · intro other
    rw [history_append]
    split
    · rename_i same
      subst same
      rw [isChain_append]
      refine ⟨lawful.follows other, .singleton _, ?_⟩
      intro last isLast next isNext
      cases isNext
      rcases source with ⟨absent, -⟩ | ⟨base, newest, followed⟩
      · rw [absent] at isLast
        cases isLast
      · cases newest.symm.trans isLast
        exact followed
    · exact lawful.follows other

omit [DecidableEq κ] in
/-- What the first version satisfies and each change keeps, every version satisfies. -/
theorem Lawful.forall {property : κ → ν → Prop} (lawful : Lawful opens follows store)
    (initially : ∀ key value, opens key value → property key value)
    (kept : ∀ key base value, property key base → follows key base value → property key value)
    {value : ν} (listed : value ∈ store.history key) : property key value := by
  apply (lawful.follows key).induction (property key) _
  · intro base next changed held
    exact kept key base next held changed
  · intro present
    exact initially key _ (lawful.opens key _ (head?_eq_some_head present))
  · exact listed

end Laws

end VersionedStore

section Fencing

variable {ν τ η : Type} [Preorder τ]

/-- A newer version has a larger token, or the token and the holder of the older one. -/
def Fenced (token : ν → τ) (holder : ν → η) (older newer : ν) : Prop :=
  token older < token newer ∨ token older = token newer ∧ holder older = holder newer

variable {token : ν → τ} {holder : ν → η}

theorem Fenced.trans {first second third : ν} (early : Fenced token holder first second)
    (late : Fenced token holder second third) : Fenced token holder first third := by
  rcases early with less | ⟨sameToken, sameHolder⟩
  · rcases late with more | ⟨sameToken, -⟩
    · exact .inl (less.trans more)
    · exact .inl (sameToken ▸ less)
  · rw [Fenced, sameToken, sameHolder]
    exact late

theorem Fenced.token_le {older newer : ν} (fenced : Fenced token holder older newer) :
    token older ≤ token newer := by
  rcases fenced with less | ⟨same, -⟩
  · exact less.le
  · exact same.le

theorem Fenced.token_lt {older newer : ν} (fenced : Fenced token holder older newer)
    (changed : holder older ≠ holder newer) : token older < token newer := by
  rcases fenced with less | ⟨-, same⟩
  · exact less
  · exact absurd same changed

theorem Fenced.holder_eq {older newer : ν} (fenced : Fenced token holder older newer)
    (same : token older = token newer) : holder older = holder newer := by
  rcases fenced with less | ⟨-, kept⟩
  · exact absurd less (same ▸ lt_irrefl _)
  · exact kept

theorem pairwise_fenced {versions : List ν} (chain : versions.IsChain (Fenced token holder)) :
    versions.Pairwise (Fenced token holder) := by
  have transitive : Trans (Fenced token holder) (Fenced token holder) (Fenced token holder) :=
    ⟨Fenced.trans⟩
  exact isChain_iff_pairwise.mp chain

theorem holder_unique {versions : List ν} (chain : versions.IsChain (Fenced token holder))
    {left right : ν} (leftListed : left ∈ versions) (rightListed : right ∈ versions)
    (same : token left = token right) : holder left = holder right := by
  have symmetric : Std.Symm (fun left right : ν => token left = token right →
      holder left = holder right) := ⟨fun _ _ agree same => (agree same.symm).symm⟩
  exact ((pairwise_fenced chain).imp Fenced.holder_eq).forall_of_forall (fun _ _ _ => rfl)
    leftListed rightListed same

end Fencing

end Elura
