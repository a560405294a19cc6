import Mathlib

/-!
Logs whose entries carry consecutive numbers. Cumulative acknowledgement is the
removal of a front of such a log.
-/

namespace Elura

open List

variable {α : Type}

def Numbered (number : α → Nat) (first : Nat) (log : List α) : Prop :=
  log.map number = List.range' first log.length

namespace Numbered

variable {number : α → Nat} {first : Nat} {log : List α}

section

variable (numbered : Numbered number first log)
include numbered

theorem concat {entry : α}
    (next : number entry = first + log.length) : Numbered number first (log ++ [entry]) := by
  unfold Numbered at *
  rw [map_append, numbered, length_append, length_singleton, range'_concat,
    map_singleton, next, Nat.one_mul]

theorem drop (count : Nat) :
    Numbered number (first + count) (log.drop count) := by
  unfold Numbered at *
  rw [map_drop, numbered, drop_range', length_drop, Nat.mul_one]

theorem suffix {rest : List α} (kept : rest <:+ log) :
    ∃ start, Numbered number start rest ∧ start + rest.length = first + log.length := by
  refine ⟨first + (log.length - rest.length), ?_, ?_⟩
  · have rest_eq := suffix_iff_eq_drop.mp kept
    rw [rest_eq, length_drop]
    have shorter := kept.length_le
    rw [show log.length - (log.length - (log.length - rest.length)) =
      log.length - rest.length by omega]
    exact numbered.drop _
  · have shorter := kept.length_le
    omega

theorem number_eq {index : Nat} {entry : α}
    (found : log[index]? = some entry) : number entry = first + index := by
  have mapped := congrArg (fun numbers => numbers[index]?) numbered
  obtain ⟨bound, _⟩ := List.getElem?_eq_some_iff.mp found
  simp only [List.getElem?_map, found, Option.map_some, List.getElem?_range' bound,
    Option.some.injEq] at mapped
  omega

theorem place {entry : α} (member : entry ∈ log) :
    first ≤ number entry ∧ number entry < first + log.length ∧
      log[number entry - first]? = some entry := by
  obtain ⟨index, found⟩ := List.mem_iff_getElem?.mp member
  have value := numbered.number_eq found
  obtain ⟨bound, _⟩ := List.getElem?_eq_some_iff.mp found
  refine ⟨by omega, by omega, ?_⟩
  rw [value, Nat.add_sub_cancel_left]
  exact found

theorem exists_entry {value : Nat} (lower : first ≤ value)
    (upper : value < first + log.length) :
    ∃ entry, log[value - first]? = some entry ∧ number entry = value := by
  have bound : value - first < log.length := by omega
  refine ⟨log[value - first], getElem?_eq_getElem bound, ?_⟩
  rw [numbered.number_eq (getElem?_eq_getElem bound)]
  omega

theorem dropWhile_le {skipped last : Nat}
    (ordered : first + skipped ≤ last + 1) :
    (log.drop skipped).dropWhile (fun entry => number entry ≤ last) =
      log.drop (last + 1 - first) := by
  have split : log.drop skipped =
      (log.drop skipped).take (last + 1 - first - skipped) ++ log.drop (last + 1 - first) := by
    have joined := List.take_append_drop (last + 1 - first - skipped) (log.drop skipped)
    rw [List.drop_drop, Nat.add_sub_cancel' (by omega)] at joined
    exact joined.symm
  rw [split, List.dropWhile_append_of_pos]
  · cases rest : log.drop (last + 1 - first) with
    | nil => rfl
    | cons entry =>
      have found : log[last + 1 - first]? = some entry := by
        rw [← List.head?_drop, rest]
        rfl
      have value := numbered.number_eq found
      rw [List.dropWhile_cons_of_neg]
      simp only [decide_eq_true_eq]
      omega
  · intro entry member
    obtain ⟨index, found⟩ := List.mem_iff_getElem?.mp member
    obtain ⟨bound, value⟩ := List.getElem?_eq_some_iff.mp found
    simp only [List.length_take, List.length_drop] at bound
    simp only [List.getElem_take, List.getElem_drop] at value
    have numberOf := numbered.number_eq (List.getElem?_eq_some_iff.mpr ⟨by omega, value⟩)
    simp only [decide_eq_true_eq]
    omega

end

end Numbered

end Elura
