import Mathlib

/-!
A log of inputs indexed by time and the states it produces. Entries up to `floor` are settled,
entries up to `head` may still be amended; no run changes a settled entry.
-/

namespace Elura

section Timeline

variable {A S : Type}

def timeline (advance : Nat → A → S → S) (initial : S) (log : Nat → A) : Nat → S
  | 0 => initial
  | time + 1 => advance (time + 1) (log (time + 1)) (timeline advance initial log time)

theorem timeline_congr (advance : Nat → A → S → S) (initial : S) {log other : Nat → A}
    (time : Nat) (same : ∀ entry, 0 < entry → entry ≤ time → log entry = other entry) :
    timeline advance initial log time = timeline advance initial other time := by
  induction time with
  | zero => rfl
  | succ time ih =>
    have earlier := ih (fun entry positive bound => same entry positive (by omega))
    rw [timeline, timeline, earlier, same (time + 1) (by omega) le_rfl]

structure Ledger (A : Type) where
  log : Nat → A
  floor : Nat
  head : Nat
  bounded : floor ≤ head

namespace Ledger

inductive Step : Ledger A → Ledger A → Prop
  | amend (ledger : Ledger A) (entry : Nat) (value : A) (open_ : ledger.floor < entry)
      (known : entry ≤ ledger.head) :
      Step ledger { ledger with log := Function.update ledger.log entry value }
  | extend (ledger : Ledger A) (value : A) :
      Step ledger
        { log := Function.update ledger.log (ledger.head + 1) value
          floor := ledger.floor
          head := ledger.head + 1
          bounded := Nat.le_succ_of_le ledger.bounded }
  | settle (ledger : Ledger A) (floor : Nat) (later : ledger.floor ≤ floor)
      (known : floor ≤ ledger.head) :
      Step ledger { ledger with floor, bounded := known }

abbrev Reachable : Ledger A → Ledger A → Prop := Relation.ReflTransGen Step

theorem settled_of_step {before after : Ledger A} (step : Step before after) :
    before.floor ≤ after.floor ∧ ∀ entry ≤ before.floor, after.log entry = before.log entry := by
  cases step with
  | amend =>
    refine ⟨le_rfl, fun other settled => ?_⟩
    exact Function.update_of_ne (by omega) _ _
  | extend =>
    have bounded := before.bounded
    refine ⟨le_rfl, fun other settled => ?_⟩
    exact Function.update_of_ne (by omega) _ _
  | settle _ later => exact ⟨later, fun _ _ => rfl⟩

/-- No run changes an entry that was settled before it. -/
theorem settled_of_reachable {before after : Ledger A} (run : Reachable before after) :
    before.floor ≤ after.floor ∧ ∀ entry ≤ before.floor, after.log entry = before.log entry := by
  induction run with
  | refl => exact ⟨le_rfl, fun _ _ => rfl⟩
  | tail _ step ih =>
    obtain ⟨grows, same⟩ := settled_of_step step
    refine ⟨le_trans ih.1 grows, fun entry settled => ?_⟩
    rw [same entry (le_trans settled ih.1), ih.2 entry settled]

/-- Any rewrite of the open entries is a run of amendments. -/
theorem reachable_rewrite (ledger : Ledger A) (log : Nat → A)
    (same : ∀ entry, ¬(ledger.floor < entry ∧ entry ≤ ledger.head) → log entry = ledger.log entry) :
    Reachable ledger { ledger with log } := by
  have partly : ∀ upTo ≤ ledger.head, Reachable ledger { ledger with
      log := fun entry => if entry ≤ upTo then log entry else ledger.log entry } := by
    intro upTo bound
    induction upTo with
    | zero =>
      have unchanged : (fun entry => if entry ≤ 0 then log entry else ledger.log entry) =
          ledger.log := by
        funext entry
        split
        · exact same entry (by omega)
        · rfl
      rw [unchanged]
    | succ upTo ih =>
      have earlier := ih (by omega)
      by_cases settled : upTo + 1 ≤ ledger.floor
      · have unchanged : (fun entry => if entry ≤ upTo + 1 then log entry else ledger.log entry) =
            (fun entry => if entry ≤ upTo then log entry else ledger.log entry) := by
          funext entry
          by_cases here : entry = upTo + 1
          · subst entry
            simp [same (upTo + 1) (by omega)]
          · simp only [show (entry ≤ upTo + 1) = (entry ≤ upTo) by
              rw [eq_iff_iff]; omega]
        rw [unchanged]
        exact earlier
      · have amended := Step.amend { ledger with
            log := fun entry => if entry ≤ upTo then log entry else ledger.log entry }
          (upTo + 1) (log (upTo + 1)) (Nat.not_le.mp settled) bound
        have rewritten : Function.update
            (fun entry => if entry ≤ upTo then log entry else ledger.log entry) (upTo + 1)
            (log (upTo + 1)) =
            (fun entry => if entry ≤ upTo + 1 then log entry else ledger.log entry) := by
          funext entry
          by_cases here : entry = upTo + 1
          · subst entry
            simp
          · rw [Function.update_of_ne here]
            simp only [show (entry ≤ upTo + 1) = (entry ≤ upTo) by
              rw [eq_iff_iff]; omega]
        simp only [rewritten] at amended
        exact earlier.tail amended
  have whole := partly ledger.head le_rfl
  have final : (fun entry => if entry ≤ ledger.head then log entry else ledger.log entry) = log := by
    funext entry
    split
    · rfl
    · exact (same entry (by omega)).symm
  rwa [final] at whole

end Ledger

end Timeline

end Elura
