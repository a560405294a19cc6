import Mathlib.Data.List.Basic
import Mathlib.Order.Lattice

/-!
`slice::binary_search_by` with the order of the elements: the part of the list that can hold the
key is halved until one place is left, and only that one is compared with the key.
-/

namespace Elura.BinarySearch

variable {α : Type} [LinearOrder α] {items : List α} {key : α}

def place (items : List α) (key : α) (base size : Nat) : Nat :=
  if size ≤ 1 then base
  else
    let half := size / 2
    if items[base + half]?.any (key < ·) then place items key base (size - half)
    else place items key (base + half) (size - half)
termination_by size

def found (items : List α) (key : α) : Bool :=
  items[place items key 0 items.length]? = some key

theorem place_eq (sorted : items.Pairwise (· < ·)) {index base size : Nat}
    (present : items[index]? = some key) (lower : base ≤ index) (upper : index < base + size)
    (bounded : base + size ≤ items.length) :
    place items key base size = index := by
  have apart {first second : Nat} {left right : α} (ordered : first < second)
      (one : items[first]? = some left) (other : items[second]? = some right) : left < right := by
    obtain ⟨firstBound, rfl⟩ := List.getElem?_eq_some_iff.mp one
    obtain ⟨secondBound, rfl⟩ := List.getElem?_eq_some_iff.mp other
    exact List.pairwise_iff_getElem.mp sorted first second firstBound secondBound ordered
  fun_induction place items key base size with
  | case1 base size single => omega
  | case2 base size several half above ih =>
    obtain ⟨middle, found, greater⟩ := (Option.any_eq_true _ _).mp above
    refine ih lower ?_ (by omega)
    rcases Nat.lt_trichotomy (base + half) index with after | same | before
    · exact absurd (of_decide_eq_true greater) (lt_asymm (apart after found present))
    · rw [same, present] at found
      cases found
      exact absurd (of_decide_eq_true greater) (lt_irrefl key)
    · omega
  | case3 base size several half below ih =>
    refine ih ?_ (by omega) (by omega)
    by_contra before
    have inside : index < base + half := by omega
    cases found : items[base + half]? with
    | none =>
      have beyond := List.getElem?_eq_none_iff.mp found
      omega
    | some middle =>
      rw [found] at below
      exact below (decide_eq_true (apart inside present found))

theorem found_iff (sorted : items.Pairwise (· < ·)) : found items key = true ↔ key ∈ items := by
  rw [found, decide_eq_true_iff]
  constructor
  · exact List.mem_of_getElem?
  · intro member
    obtain ⟨index, present⟩ := List.mem_iff_getElem?.mp member
    have bound := (List.getElem?_eq_some_iff.mp present).1
    rwa [place_eq sorted present (Nat.zero_le _) (by omega) (by omega)]

end Elura.BinarySearch
