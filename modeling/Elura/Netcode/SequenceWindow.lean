import Elura.Basis.Rust

/-!
The cumulative acknowledgement window of `elura-netcode`: it stands for the set of received
sequences, and `observe` adds exactly one number to that set.
-/

namespace Elura.Netcode

open Fallible

inductive NetcodeError
  | invalidConfig (message : String)
  | invalidSample (message : String)
  | invalidInput (message : String)
  | inputHistoryFull
  | sequenceExhausted
  | invalidAcknowledgement
  | predictionHistoryFull
  | replayLimitExceeded
  | interpolationBufferEmpty
  | predictedEntityLimit
  deriving DecidableEq, Repr

inductive SequenceDisposition
  | accepted
  | duplicate
  deriving DecidableEq, Repr

structure SequenceWindow where
  reorderWindow : Nat
  acknowledged : Nat
  pending : Std.ExtTreeSet Nat

namespace SequenceWindow

variable (window : SequenceWindow)

def withAcknowledged (reorderWindow acknowledged : Nat) : Except NetcodeError SequenceWindow :=
  if reorderWindow = 0 then .error (.invalidConfig "input reorder window must be positive")
  else .ok { reorderWindow, acknowledged, pending := ∅ }

def new (reorderWindow : Nat) : Except NetcodeError SequenceWindow :=
  withAcknowledged reorderWindow 0

/-- The `while let` loop of `observe`. Every round removes one pending number,
so the number of pending entries is enough fuel. -/
def closeGaps : Nat → Nat → Std.ExtTreeSet Nat → Nat × Std.ExtTreeSet Nat
  | 0, acknowledged, pending => (acknowledged, pending)
  | fuel + 1, acknowledged, pending =>
    match checkedAdd acknowledged 1 with
    | none => (acknowledged, pending)
    | some next =>
      if next ∈ pending then closeGaps fuel next (pending.erase next)
      else (acknowledged, pending)

def observe (sequence : Nat) : Fallible SequenceWindow NetcodeError SequenceDisposition := do
  let window ← get
  if sequence = 0 then
    throw (.invalidInput "input sequence must be positive")
  else if sequence ≤ window.acknowledged ∨ sequence ∈ window.pending then
    return .duplicate
  else if saturatingAdd window.acknowledged window.reorderWindow < sequence then
    throw (.invalidInput "input sequence exceeds the reorder window")
  else
    let inserted := window.pending.insert sequence
    let closed := closeGaps inserted.size window.acknowledged inserted
    set { window with acknowledged := closed.1, pending := closed.2 }
    return .accepted

def Received (window : SequenceWindow) (sequence : Nat) : Prop :=
  sequence ≤ window.acknowledged ∨ sequence ∈ window.pending

instance (window : SequenceWindow) (sequence : Nat) : Decidable (window.Received sequence) :=
  inferInstanceAs (Decidable (_ ∨ _))

structure WellFormed (window : SequenceWindow) : Prop where
  acknowledgedBound : window.acknowledged ≤ u64Max
  pendingBound : ∀ sequence ∈ window.pending, sequence ≤ u64Max
  gap : ∀ sequence ∈ window.pending, window.acknowledged + 1 < sequence

theorem withAcknowledged_wellFormed {reorderWindow acknowledged : Nat} {window : SequenceWindow}
    (created : withAcknowledged reorderWindow acknowledged = .ok window)
    (bounded : acknowledged ≤ u64Max) :
    window.WellFormed ∧ window.reorderWindow = reorderWindow ∧
      window.acknowledged = acknowledged ∧ window.pending = ∅ := by
  simp only [withAcknowledged] at created
  split at created
  · simp at created
  · simp only [Except.ok.injEq] at created
    subst window
    exact ⟨⟨bounded, by simp, by simp⟩, rfl, rfl, rfl⟩

theorem new_wellFormed {reorderWindow : Nat} {window : SequenceWindow}
    (created : new reorderWindow = .ok window) :
    window.WellFormed ∧ window.reorderWindow = reorderWindow ∧ window.acknowledged = 0 ∧
      window.pending = ∅ :=
  withAcknowledged_wellFormed created (Nat.zero_le _)

theorem closeGaps_spec (fuel acknowledged : Nat) (pending : Std.ExtTreeSet Nat)
    (enough : pending.size ≤ fuel) (acknowledgedBound : acknowledged ≤ u64Max)
    (pendingBound : ∀ sequence ∈ pending, sequence ≤ u64Max)
    (above : ∀ sequence ∈ pending, acknowledged < sequence) :
    let closed := closeGaps fuel acknowledged pending
    acknowledged ≤ closed.1 ∧ closed.1 ≤ u64Max ∧
      (∀ sequence ∈ closed.2, sequence ∈ pending) ∧
      (∀ sequence ∈ closed.2, closed.1 + 1 < sequence) ∧
      ∀ sequence, (sequence ≤ closed.1 ∨ sequence ∈ closed.2) ↔
        (sequence ≤ acknowledged ∨ sequence ∈ pending) := by
  induction fuel generalizing acknowledged pending with
  | zero =>
    have empty : pending = ∅ := by
      rw [Std.ExtTreeSet.eq_empty_iff_size_eq_zero]
      omega
    subst pending
    simp [closeGaps, acknowledgedBound]
  | succ fuel ih =>
    simp only [closeGaps]
    cases next : checkedAdd acknowledged 1 with
    | none =>
      have exhausted : ¬acknowledged + 1 ≤ u64Max := by
        intro bounded
        simp [checkedAdd_of_le bounded] at next
      refine ⟨le_rfl, acknowledgedBound, by simp, ?_, by simp⟩
      intro sequence member
      have upper := pendingBound sequence member
      have lower := above sequence member
      omega
    | some =>
      obtain ⟨rfl, followingBound⟩ := checkedAdd_eq_some next
      by_cases buffered : acknowledged + 1 ∈ pending
      · simp only [buffered, if_true]
        have smaller : (pending.erase (acknowledged + 1)).size ≤ fuel := by
          rw [Std.ExtTreeSet.size_erase, if_pos (Std.ExtTreeSet.contains_iff_mem.mpr buffered)]
          omega
        have rest := ih (acknowledged + 1) (pending.erase (acknowledged + 1)) smaller
          followingBound
          (by
            intro sequence member
            exact pendingBound sequence (Std.ExtTreeSet.mem_of_mem_erase member))
          (by
            intro sequence member
            simp only [Std.ExtTreeSet.mem_erase, ne_eq, compare_eq_iff_eq] at member
            have lower := above sequence member.2
            omega)
        obtain ⟨grows, bounded, subset, gap, same⟩ := rest
        refine ⟨by omega, bounded, ?_, gap, ?_⟩
        · intro sequence member
          exact Std.ExtTreeSet.mem_of_mem_erase (subset sequence member)
        · intro sequence
          rw [same sequence]
          simp only [Std.ExtTreeSet.mem_erase, ne_eq, compare_eq_iff_eq]
          by_cases last : acknowledged + 1 = sequence
          · subst sequence
            simp [buffered]
          · have low : sequence ≤ acknowledged + 1 ↔ sequence ≤ acknowledged := by omega
            simp only [low, last, not_false_eq_true, true_and]
      · simp only [buffered, if_false]
        refine ⟨le_rfl, acknowledgedBound, by simp, ?_, by simp⟩
        intro sequence member
        have lower := above sequence member
        have different : sequence ≠ acknowledged + 1 := by
          intro same
          exact buffered (same ▸ member)
        omega

/-- A sequence inside the window is accepted at most once, and the window then
stands for one more received number. -/
theorem observe_spec (wellFormed : window.WellFormed)
    (sequence : Nat) (positive : 0 < sequence)
    (inside : sequence ≤ saturatingAdd window.acknowledged window.reorderWindow) :
    ∃ after, after.WellFormed ∧ after.reorderWindow = window.reorderWindow ∧
      window.acknowledged ≤ after.acknowledged ∧
      (∀ number, after.Received number ↔ window.Received number ∨ number = sequence) ∧
      ((window.Received sequence ∧ after = window ∧
          (observe sequence).call window = (.ok .duplicate, window)) ∨
        (¬window.Received sequence ∧
          (observe sequence).call window = (.ok .accepted, after))) := by
  by_cases received : window.Received sequence
  · refine ⟨window, wellFormed, rfl, le_rfl, ?_, .inl ⟨received, rfl, ?_⟩⟩
    · exact fun number => (or_iff_left_of_imp (fun same => same ▸ received)).symm
    · have known : sequence ≤ window.acknowledged ∨ sequence ∈ window.pending := received
      simp [observe, call_bind, known, Nat.pos_iff_ne_zero.mp positive]
  · have unknown : ¬(sequence ≤ window.acknowledged ∨ sequence ∈ window.pending) := received
    have fits : ¬saturatingAdd window.acknowledged window.reorderWindow < sequence := by omega
    have sequenceBound : sequence ≤ u64Max := by
      simp only [saturatingAdd] at inside
      omega
    have entries : ∀ number ∈ window.pending.insert sequence,
        number ≤ u64Max ∧ window.acknowledged < number := by
      intro number member
      simp only [Std.ExtTreeSet.mem_insert, compare_eq_iff_eq] at member
      rcases member with rfl | member
      · exact ⟨sequenceBound, by omega⟩
      · have gap := wellFormed.gap number member
        exact ⟨wellFormed.pendingBound number member, by omega⟩
    have closed := closeGaps_spec (window.pending.insert sequence).size window.acknowledged
      (window.pending.insert sequence) le_rfl wellFormed.acknowledgedBound
      (fun number member => (entries number member).1)
      (fun number member => (entries number member).2)
    obtain ⟨grows, bounded, subset, gap, same⟩ := closed
    refine ⟨{ window with
        acknowledged := (closeGaps (window.pending.insert sequence).size window.acknowledged
          (window.pending.insert sequence)).1
        pending := (closeGaps (window.pending.insert sequence).size window.acknowledged
          (window.pending.insert sequence)).2 },
      ⟨bounded, fun number member => (entries number (subset number member)).1, gap⟩, rfl, grows, ?_,
      .inr ⟨received, ?_⟩⟩
    · intro number
      refine (same number).trans ?_
      simp only [Std.ExtTreeSet.mem_insert, compare_eq_iff_eq, Received,
        @eq_comm _ sequence, or_comm, or_left_comm]
    · simp [observe, call_bind, unknown, fits, Nat.pos_iff_ne_zero.mp positive]

theorem observe_error (sequence : Nat)
    (outside : sequence = 0 ∨ ¬window.Received sequence ∧
      saturatingAdd window.acknowledged window.reorderWindow < sequence) :
    ∃ error, (observe sequence).call window = (.error error, window) := by
  by_cases zero : sequence = 0
  · exact ⟨.invalidInput "input sequence must be positive", by
      simp [observe, call_bind, zero]⟩
  · obtain ⟨unknown, beyond⟩ := outside.resolve_left zero
    have fresh : ¬(sequence ≤ window.acknowledged ∨ sequence ∈ window.pending) := unknown
    exact ⟨.invalidInput "input sequence exceeds the reorder window", by
      simp [observe, call_bind, zero, fresh, beyond]⟩

def Reaches (window : SequenceWindow) : Prop :=
  ∀ sequence ∈ window.pending, sequence ≤ window.acknowledged + window.reorderWindow

/-- What observing any number does: it is refused, it is known, or the window
stands for one more number. -/
theorem observe_cases (wellFormed : window.WellFormed)
    (reaches : window.Reaches) (sequence : Nat) :
    (∃ error, (observe sequence).call window = (.error error, window)) ∨
      (window.Received sequence ∧ (observe sequence).call window = (.ok .duplicate, window)) ∨
      ∃ after, (observe sequence).call window = (.ok .accepted, after) ∧
        0 < sequence ∧ ¬window.Received sequence ∧ after.WellFormed ∧ after.Reaches ∧
        after.reorderWindow = window.reorderWindow ∧
        ∀ number, after.Received number ↔ window.Received number ∨ number = sequence := by
  by_cases outside : sequence = 0 ∨ ¬window.Received sequence ∧
      saturatingAdd window.acknowledged window.reorderWindow < sequence
  · exact .inl (observe_error window sequence outside)
  · rw [not_or] at outside
    by_cases received : window.Received sequence
    · refine .inr (.inl ⟨received, ?_⟩)
      have known : sequence ≤ window.acknowledged ∨ sequence ∈ window.pending := received
      simp [observe, call_bind, known, outside.1]
    · have positive : 0 < sequence := Nat.pos_of_ne_zero outside.1
      have inside : sequence ≤ saturatingAdd window.acknowledged window.reorderWindow :=
        Nat.not_lt.mp (fun beyond => outside.2 ⟨received, beyond⟩)
      obtain ⟨after, nextWellFormed, size, grows, receivedNext, outcome⟩ :=
        observe_spec window wellFormed sequence positive inside
      rcases outcome with ⟨known, _⟩ | ⟨_, observed⟩
      · exact absurd known received
      · refine .inr (.inr ⟨after, observed, positive, received, nextWellFormed, ?_, size,
          receivedNext⟩)
        intro number member
        have gap := nextWellFormed.gap number member
        rw [size]
        rcases (receivedNext number).mp (.inr member) with (low | old) | rfl
        · omega
        · have bound := reaches number old
          omega
        · simp only [saturatingAdd] at inside
          omega

end SequenceWindow

end Elura.Netcode
