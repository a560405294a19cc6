import Mathlib.Data.List.Basic
import Mathlib.Data.List.Induction
import Mathlib.Order.Defs.Unbundled

/-!
Choices that follow a ranking. A choice that is always the member beating all others depends
on the set of candidates alone, does not change when another candidate leaves, and changes
only to the newcomer when one joins.
-/

namespace Elura

open List

variable {α ε : Type}

def Tops (beats : α → α → Prop) (candidates : List α) (best : α) : Prop :=
  best ∈ candidates ∧ ∀ other ∈ candidates, other ≠ best → beats best other

namespace Tops

variable {beats : α → α → Prop} {candidates others : List α} {best : α}

theorem unique (asymmetric : ∀ left right, beats left right → ¬beats right left) {second : α}
    (top : Tops beats candidates best) (also : Tops beats candidates second) : best = second := by
  by_contra different
  exact asymmetric best second (top.2 second also.1 (Ne.symm different))
    (also.2 best top.1 different)

theorem of_subset (top : Tops beats candidates best) (kept : best ∈ others)
    (subset : ∀ candidate ∈ others, candidate ∈ candidates) : Tops beats others best :=
  ⟨kept, fun other listed different => top.2 other (subset other listed) different⟩

/-- A scan that keeps the better of two candidates ends with the best one. -/
theorem of_scan (transitive : ∀ one two three, beats one two → beats two three → beats one three)
    {replaces : α → α → Bool} {first : α} {rest : List α}
    (decides : ∀ next ∈ first :: rest, ∀ kept ∈ first :: rest, next ≠ kept →
      if replaces next kept then beats next kept else beats kept next) :
    Tops beats (first :: rest)
      (rest.foldl (fun kept next => if replaces next kept then next else kept) first) := by
  induction rest using reverseRecOn with
  | nil =>
    refine ⟨mem_singleton_self first, ?_⟩
    intro other listed different
    exact absurd (mem_singleton.mp listed) different
  | append_singleton rest next ih =>
    have earlier : ∀ {candidate : α}, candidate ∈ first :: rest →
        candidate ∈ first :: (rest ++ [next]) := by
      intro candidate listed
      rw [← cons_append]
      exact mem_append_left _ listed
    have newest : next ∈ first :: (rest ++ [next]) := by
      rw [← cons_append]
      exact mem_append_right _ (mem_singleton_self next)
    have top := ih (fun one oneListed two twoListed =>
      decides one (earlier oneListed) two (earlier twoListed))
    rw [foldl_append]
    generalize rest.foldl (fun kept next => if replaces next kept then next else kept) first =
      kept at top
    have cases : ∀ {other : α}, other ∈ first :: (rest ++ [next]) →
        other ∈ first :: rest ∨ other = next := by
      intro other listed
      rw [← cons_append, mem_append, mem_singleton] at listed
      exact listed
    have decided := decides next newest kept (earlier top.1)
    simp only [foldl_cons]
    split
    · rename_i replaced
      refine ⟨newest, ?_⟩
      intro other listed different
      by_cases same : next = kept
      · exact same ▸ top.2 other ((cases listed).resolve_right different)
          (same ▸ different)
      · have ahead : beats next kept := by simpa [replaced] using decided same
        by_cases isKept : other = kept
        · exact isKept ▸ ahead
        · exact transitive next kept other ahead
            (top.2 other ((cases listed).resolve_right different) isKept)
    · rename_i stays
      refine ⟨earlier top.1, ?_⟩
      intro other listed different
      rcases cases listed with old | rfl
      · exact top.2 other old different
      · simpa [stays] using decided different

end Tops

structure StablePlacement (admissible : List α → Prop) (choose : List α → Except ε α) : Prop where
  chosen : ∀ candidates, admissible candidates → candidates ≠ [] →
    ∃ best ∈ candidates, choose candidates = .ok best
  order : ∀ candidates others, admissible candidates → admissible others →
    (∀ candidate, candidate ∈ others ↔ candidate ∈ candidates) →
      choose others = choose candidates
  departure : ∀ candidates others best removed, admissible candidates → admissible others →
    choose candidates = .ok best → removed ≠ best →
    (∀ candidate, candidate ∈ others ↔ candidate ∈ candidates ∧ candidate ≠ removed) →
      choose others = .ok best
  arrival : ∀ candidates others best added, admissible candidates → admissible others →
    choose candidates = .ok best →
    (∀ candidate, candidate ∈ others ↔ candidate ∈ candidates ∨ candidate = added) →
      choose others = .ok best ∨ choose others = .ok added

theorem stablePlacement_of_tops {beats : α → α → Prop} {admissible : List α → Prop}
    {choose : List α → Except ε α}
    (asymmetric : ∀ left right, beats left right → ¬beats right left)
    (tops : ∀ candidates, admissible candidates → candidates ≠ [] →
      ∃ best, choose candidates = .ok best ∧ Tops beats candidates best)
    (refuses : ∀ best, choose [] ≠ .ok best) :
    StablePlacement admissible choose := by
  have top_of_ok : ∀ candidates best, admissible candidates → choose candidates = .ok best →
      Tops beats candidates best := by
    intro candidates best fit chosen
    have present : candidates ≠ [] := by
      rintro rfl
      exact refuses best chosen
    obtain ⟨found, isFound, top⟩ := tops candidates fit present
    cases chosen.symm.trans isFound
    exact top
  have ok_of_top : ∀ candidates best, admissible candidates → Tops beats candidates best →
      choose candidates = .ok best := by
    intro candidates best fit top
    obtain ⟨found, isFound, also⟩ := tops candidates fit (ne_nil_of_mem top.1)
    rw [isFound, top.unique asymmetric also]
  constructor
  · intro candidates fit present
    obtain ⟨best, isBest, top⟩ := tops candidates fit present
    exact ⟨best, top.1, isBest⟩
  · intro candidates others fit otherFit same
    by_cases present : candidates = []
    · subst present
      have none : others = [] :=
        eq_nil_iff_forall_not_mem.mpr (fun candidate listed => by simpa using (same candidate).mp listed)
      rw [none]
    · obtain ⟨best, isBest, top⟩ := tops candidates fit present
      rw [isBest]
      exact ok_of_top others best otherFit (top.of_subset ((same best).mpr top.1)
        (fun candidate listed => (same candidate).mp listed))
  · intro candidates others best removed fit otherFit chosen different same
    have top := top_of_ok candidates best fit chosen
    exact ok_of_top others best otherFit (top.of_subset ((same best).mpr ⟨top.1, different.symm⟩)
      (fun candidate listed => ((same candidate).mp listed).1))
  · intro candidates others best added fit otherFit chosen same
    have top := top_of_ok candidates best fit chosen
    obtain ⟨found, isFound, also⟩ :=
      tops others otherFit (ne_nil_of_mem ((same best).mpr (.inl top.1)))
    rcases (same found).mp also.1 with old | new
    · left
      have within := also.of_subset old (fun candidate listed => (same candidate).mpr (.inl listed))
      rw [isFound, within.unique asymmetric top]
    · right
      rw [isFound, new]

end Elura
