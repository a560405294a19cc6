import Mathlib.Data.Rat.Cast.Order
import Mathlib.Tactic.Linarith

/-!
The token bucket, with exact numbers in place of floating point ones. Times are in seconds.
-/

namespace Elura

structure TokenBucket where
  rate : ℚ
  capacity : ℚ
  tokens : ℚ
  updatedAt : ℚ
  deriving DecidableEq

namespace TokenBucket

def new (ratePerSecond burst : Nat) (now : ℚ) : TokenBucket where
  rate := ratePerSecond
  capacity := (max burst 1 : Nat)
  tokens := (max burst 1 : Nat)
  updatedAt := now

def level (bucket : TokenBucket) (now : ℚ) : ℚ :=
  min (bucket.tokens + max 0 (now - bucket.updatedAt) * bucket.rate) bucket.capacity

def allowN (bucket : TokenBucket) (amount : Nat) (now : ℚ) : Bool × TokenBucket :=
  if bucket.rate = 0 then (true, bucket)
  else if bucket.level now < amount then
    (false, { bucket with tokens := bucket.level now, updatedAt := now })
  else (true, { bucket with tokens := bucket.level now - amount, updatedAt := now })

def allow (bucket : TokenBucket) (now : ℚ) : Bool × TokenBucket := bucket.allowN 1 now

structure Filled (bucket : TokenBucket) (now : ℚ) : Prop where
  flows : 0 < bucket.rate
  nonneg : 0 ≤ bucket.tokens
  full : bucket.tokens ≤ bucket.capacity
  updated : bucket.updatedAt ≤ now

variable {bucket : TokenBucket} {now later : ℚ}

theorem Filled.mono (filled : bucket.Filled now) (passed : now ≤ later) : bucket.Filled later :=
  { filled with updated := le_trans filled.updated passed }

theorem Filled.elapsed (filled : bucket.Filled now) :
    max 0 (now - bucket.updatedAt) = now - bucket.updatedAt :=
  max_eq_right (sub_nonneg.mpr filled.updated)

theorem level_le_capacity : bucket.level now ≤ bucket.capacity := min_le_right _ _

theorem level_updatedAt (full : bucket.tokens ≤ bucket.capacity) :
    bucket.level bucket.updatedAt = bucket.tokens := by
  rw [level, sub_self, max_self, zero_mul, add_zero, min_eq_left full]

section

variable (filled : bucket.Filled now)
include filled

theorem Filled.level_nonneg : 0 ≤ bucket.level now := by
  have refilled := mul_nonneg (sub_nonneg.mpr filled.updated) filled.flows.le
  have room := le_trans filled.nonneg filled.full
  have tokens := filled.nonneg
  rw [level, filled.elapsed]
  exact le_min (by linarith) room

theorem Filled.level_le (passed : now ≤ later) :
    bucket.level later ≤ bucket.level now + bucket.rate * (later - now) := by
  have gained := mul_nonneg filled.flows.le (sub_nonneg.mpr passed)
  rw [level, level, filled.elapsed, (filled.mono passed).elapsed]
  rcases le_total (bucket.tokens + (now - bucket.updatedAt) * bucket.rate) bucket.capacity
    with below | above
  · rw [min_eq_left below]
    apply le_trans (min_le_left _ _)
    linarith
  · rw [min_eq_right above]
    apply le_trans (min_le_right _ _)
    linarith

/-- After a long enough pause the bucket is as good as new. -/
theorem Filled.level_idle
    (refilled : bucket.capacity ≤ bucket.rate * (now - bucket.updatedAt)) :
    bucket.level now = bucket.capacity := by
  have tokens := filled.nonneg
  rw [level, filled.elapsed]
  apply min_eq_right
  linarith

theorem Filled.allow :
    (bucket.allow now).2.Filled now ∧ (bucket.allow now).2.rate = bucket.rate ∧
      (bucket.allow now).2.capacity = bucket.capacity ∧
      (bucket.allow now).2.updatedAt = now ∧
      if (bucket.allow now).1 then
        1 ≤ bucket.level now ∧ (bucket.allow now).2.tokens = bucket.level now - 1
      else (bucket.allow now).2.tokens = bucket.level now := by
  have nonneg := filled.level_nonneg
  have bound := @level_le_capacity bucket now
  rw [TokenBucket.allow, allowN, if_neg filled.flows.ne']
  by_cases short : bucket.level now < (1 : Nat)
  · rw [if_pos short]
    exact ⟨⟨filled.flows, nonneg, bound, le_rfl⟩, rfl, rfl, rfl, rfl⟩
  · rw [if_neg short]
    rw [Nat.cast_one, not_lt] at short
    simp only [Nat.cast_one]
    exact ⟨⟨filled.flows, by simp only; linarith, by simp only; linarith, le_rfl⟩, trivial,
      trivial, trivial, short, trivial⟩

end

end TokenBucket

end Elura
