import Mathlib.Algebra.Order.Field.Basic
import Mathlib.Data.List.Induction
import Mathlib.Tactic.Linarith
import Mathlib.Tactic.Ring

/-!
Admission against a level that refills at a rate up to a capacity and loses one with each
admission. However the level is kept, no interval sees more admissions than the capacity and
what was refilled in it.
-/

namespace Elura

variable {K : Type} [LinearOrder K]

def countBetween (admissions : List K) (start stop : K) : Nat :=
  admissions.countP (fun time => start ≤ time ∧ time ≤ stop)

theorem countBetween_concat (admissions : List K) (time start stop : K) :
    countBetween (admissions ++ [time]) start stop =
      countBetween admissions start stop + if start ≤ time ∧ time ≤ stop then 1 else 0 := by
  simp [countBetween]

variable [Field K]

/-- A history of a level: the time, the level then, and the times of the admissions so far. -/
inductive Meter (rate capacity : K) : K → K → List K → Prop
  | start (now : K) : Meter rate capacity now capacity []
  | wait {now level later refilled : K} {admissions : List K}
      (before : Meter rate capacity now level admissions) (passed : now ≤ later)
      (nonneg : 0 ≤ refilled) (full : refilled ≤ capacity)
      (refill : refilled ≤ level + rate * (later - now)) :
      Meter rate capacity later refilled admissions
  | accept {now level : K} {admissions : List K}
      (before : Meter rate capacity now level admissions) (enough : 1 ≤ level) :
      Meter rate capacity now (level - 1) (admissions ++ [now])

namespace Meter

variable {rate capacity now level : K} {admissions : List K}

theorem admissions_le (meter : Meter rate capacity now level admissions) :
    ∀ time ∈ admissions, time ≤ now := by
  induction meter with
  | start => intro time listed; cases listed
  | wait _ passed _ _ _ ih =>
    intro time listed
    exact le_trans (ih time listed) passed
  | accept _ _ ih =>
    exact List.forall_mem_append.mpr ⟨ih, List.forall_mem_singleton.mpr le_rfl⟩

theorem count_eq_zero (meter : Meter rate capacity now level admissions) {start stop : K}
    (early : now < start) : countBetween admissions start stop = 0 := by
  rw [countBetween, List.countP_eq_zero]
  intro time listed inside
  rw [decide_eq_true_eq] at inside
  exact absurd (lt_of_le_of_lt (meter.admissions_le time listed) early) (not_lt.mpr inside.1)

variable [IsStrictOrderedRing K]

/-- The bound, with what is left of the level while the interval is still open. -/
theorem count_bound (flows : 0 ≤ rate) (positive : 0 ≤ capacity)
    (meter : Meter rate capacity now level admissions) {start stop : K} (ordered : start ≤ stop) :
    (countBetween admissions start stop : K) ≤ capacity + rate * (stop - start) ∧
      (start ≤ now → now ≤ stop →
        (countBetween admissions start stop : K) + level ≤ capacity + rate * (now - start)) := by
  have grows : ∀ {early late : K}, early ≤ late → rate * early ≤ rate * late :=
    fun order => mul_le_mul_of_nonneg_left order flows
  induction meter with
  | start =>
    simp only [countBetween, List.countP_nil, Nat.cast_zero]
    have refilled := mul_nonneg flows (sub_nonneg.mpr ordered)
    refine ⟨by linarith, fun opened _ => ?_⟩
    have refilled := mul_nonneg flows (sub_nonneg.mpr opened)
    linarith
  | @wait now level later refilled admissions before passed nonneg full refill ih =>
    refine ⟨ih.1, fun opened closed => ?_⟩
    by_cases early : now < start
    · rw [before.count_eq_zero early, Nat.cast_zero]
      have waited := mul_nonneg flows (sub_nonneg.mpr opened)
      linarith
    · have bound := ih.2 (not_lt.mp early) (le_trans passed closed)
      have split : rate * (later - start) = rate * (now - start) + rate * (later - now) := by
        ring
      linarith
  | @accept now level admissions before enough ih =>
    rw [countBetween_concat]
    by_cases inside : start ≤ now ∧ now ≤ stop
    · have bound := ih.2 inside.1 inside.2
      have later := grows (sub_le_sub_right inside.2 start)
      rw [if_pos inside, Nat.cast_add, Nat.cast_one]
      exact ⟨by linarith, fun _ _ => by linarith⟩
    · rw [if_neg inside]
      exact ⟨ih.1, fun opened closed => absurd ⟨opened, closed⟩ inside⟩

end Meter

end Elura
