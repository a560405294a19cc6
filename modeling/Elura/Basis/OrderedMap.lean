import Elura.Basis.Rust

/-!
Facts about ordered maps that the standard library does not state: the size of
a map grows with its keys, and staged changes laid over a base map behave
like the map obtained by committing them.
-/

namespace Elura.OrderedMap

open List

open Std (ExtTreeMap TransOrd LawfulEqOrd)

variable {K V : Type} [Ord K] [TransOrd K] [LawfulEqOrd K]
variable (table : ExtTreeMap K V) (base : ExtTreeMap K V)

theorem getElem?_insert_ite [DecidableEq K] (table : ExtTreeMap K V) (key other : K) (value : V) :
    (table.insert key value)[other]? = if key = other then some value else table[other]? := by
  simp [ExtTreeMap.getElem?_insert]

theorem getElem?_erase_ite [DecidableEq K] (table : ExtTreeMap K V) (key other : K) :
    (table.erase key)[other]? = if key = other then none else table[other]? := by
  simp [ExtTreeMap.getElem?_erase]

theorem getElem?_filter_key (keep : K → Prop) [DecidablePred keep]
    (key : K) : (table.filter (fun key _ => keep key))[key]? =
      if keep key then table[key]? else none := by
  by_cases kept : keep key
  · cases found : table[key]? with
    | none => simp [found]
    | some => simp [found, kept]
  · simp [kept]

theorem size_lt_of_subset (small large : ExtTreeMap K V) {key : K}
    (subset : ∀ other, other ∈ small → other ∈ large) (present : key ∈ large)
    (absent : key ∉ small) : small.size < large.size := by
  have distinct : (key :: small.keys).Nodup :=
    nodup_cons.mpr ⟨fun member => absent (ExtTreeMap.mem_keys.mp member),
      ExtTreeMap.nodup_keys⟩
  rw [← ExtTreeMap.length_keys, ← ExtTreeMap.length_keys]
  refine (subperm_of_subset distinct ?_).length_le
  intro other member
  rw [ExtTreeMap.mem_keys]
  rcases mem_cons.mp member with rfl | old
  · exact present
  · exact subset other (ExtTreeMap.mem_keys.mp old)

def commit (table : ExtTreeMap K V) (key : K) : Option V → ExtTreeMap K V
  | some value => table.insert key value
  | none => table.erase key

def overlay (base : ExtTreeMap K V) (changes : ExtTreeMap K (Option V)) : ExtTreeMap K V :=
  changes.foldl commit base

theorem getElem?_commit_self (key : K) (change : Option V) :
    (commit table key change)[key]? = change := by
  cases change <;> simp [commit]

theorem getElem?_commit_ne {key other : K} (change : Option V)
    (different : key ≠ other) : (commit table key change)[other]? = table[other]? := by
  have distinct : ¬compare key other = .eq := by simpa using different
  cases change with
  | none => simp only [commit, ExtTreeMap.getElem?_erase, if_neg distinct]
  | some => simp only [commit, ExtTreeMap.getElem?_insert, if_neg distinct]

theorem getElem?_foldl_commit_of_not_mem (changes : List (K × Option V)) (key : K)
    (base : ExtTreeMap K V) (absent : ∀ change, (key, change) ∉ changes) :
    (changes.foldl (fun table change => commit table change.1 change.2) base)[key]? =
      base[key]? := by
  induction changes generalizing base with
  | nil => rfl
  | cons first _ ih =>
    have different : first.1 ≠ key := by
      intro same
      exact absent first.2 (by simp [← same])
    rw [foldl_cons, ih _ (fun change member => absent change (mem_cons_of_mem _ member)),
      getElem?_commit_ne base first.2 different]

theorem getElem?_foldl_commit_of_mem (changes : List (K × Option V)) (key : K)
    (change : Option V) (base : ExtTreeMap K V)
    (distinct : changes.Pairwise (fun left right => left.1 ≠ right.1))
    (member : (key, change) ∈ changes) :
    (changes.foldl (fun table change => commit table change.1 change.2) base)[key]? = change := by
  induction changes generalizing base with
  | nil => simp at member
  | cons first rest ih =>
    rw [pairwise_cons] at distinct
    rw [foldl_cons]
    rcases mem_cons.mp member with same | later
    · subst first
      rw [getElem?_foldl_commit_of_not_mem rest key _
        (fun other belongs => distinct.1 _ belongs rfl)]
      exact getElem?_commit_self base key change
    · exact ih _ distinct.2 later

theorem getElem?_overlay (changes : ExtTreeMap K (Option V)) (key : K) :
    (overlay base changes)[key]? = (changes[key]?).getD base[key]? := by
  rw [overlay, ExtTreeMap.foldl_eq_foldl_toList]
  cases found : changes[key]? with
  | none =>
    apply getElem?_foldl_commit_of_not_mem
    intro change member
    rw [ExtTreeMap.mem_toList_iff_getElem?_eq_some, found] at member
    simp at member
  | some =>
    apply getElem?_foldl_commit_of_mem
    · exact ExtTreeMap.distinct_keys_toList.imp (by simp)
    · exact ExtTreeMap.mem_toList_iff_getElem?_eq_some.mpr found

theorem overlay_empty : overlay base ∅ = base := by
  apply ExtTreeMap.ext_getElem?
  intro key
  simp [getElem?_overlay]

theorem overlay_insert (changes : ExtTreeMap K (Option V)) (key : K)
    (change : Option V) :
    overlay base (changes.insert key change) = commit (overlay base changes) key change := by
  apply ExtTreeMap.ext_getElem?
  intro other
  rw [getElem?_overlay, ExtTreeMap.getElem?_insert]
  by_cases same : compare key other = .eq
  · have equal : key = other := by simpa using same
    subst other
    simp [getElem?_commit_self]
  · rw [if_neg same, getElem?_commit_ne _ _ (by simpa using same), getElem?_overlay]

end Elura.OrderedMap
