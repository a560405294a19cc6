import Mathlib.Data.List.Basic

/-!
Lists whose places stand for processes, calls or connections: one step changes the entry of
one place or adds a place at the end.
-/

namespace Elura

open List

variable {α : Type} {list : List α} {index : Nat} {old new : α}

theorem getElem?_set_found (found : list[index]? = some old) (new : α) (other : Nat) :
    (list.set index new)[other]? = if index = other then some new else list[other]? := by
  rw [List.getElem?_set]
  split
  · rename_i same
    subst same
    exact if_pos (List.getElem?_eq_some_iff.mp found).1
  · rfl

theorem getElem?_append_found (found : list[index]? = some old) (more : List α) :
    (list ++ more)[index]? = some old := by
  rw [List.getElem?_append_left (List.getElem?_eq_some_iff.mp found).1, found]

theorem getElem?_modify_found (found : list[index]? = some old) (place : Nat) (change : α → α) :
    (list.modify place change)[index]? = some (if place = index then change old else old) := by
  rw [getElem?_modify, found]
  rfl

theorem getElem?_concat_cases {entry : α} (found : (list ++ [new])[index]? = some entry) :
    list[index]? = some entry ∨ index = list.length ∧ entry = new := by
  rcases Nat.lt_or_ge index list.length with inside | outside
  · rw [getElem?_append_left inside] at found
    exact .inl found
  · rw [getElem?_append_right outside, getElem?_singleton] at found
    split_ifs at found
    cases found
    exact .inr ⟨by omega, rfl⟩

theorem getElem?_set_cases {other : Nat} {entry : α}
    (found : (list.set index new)[other]? = some entry) :
    index = other ∧ entry = new ∨ index ≠ other ∧ list[other]? = some entry := by
  rw [getElem?_set] at found
  split at found
  · rename_i same
    split_ifs at found
    cases found
    exact .inl ⟨same, rfl⟩
  · rename_i different
    exact .inr ⟨different, found⟩

end Elura
