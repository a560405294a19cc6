import Elura.Gateway.Protection
import Mathlib.Data.Finset.Card

/-!
The permits that are out, counted: each takes one slot, and the circuit never counts more probes
than there are probe permits, so that a breaker without permits takes the next call.
-/

namespace Elura

/-- How many indices satisfy a test, if they are finitely many. -/
def Tally {ι : Type} (test : ι → Bool) (count : Nat) : Prop :=
  ∃ members : Finset ι, (∀ index, index ∈ members ↔ test index) ∧ members.card = count

theorem Tally.update {ι : Type} [DecidableEq ι] {test : ι → Bool} {count : Nat}
    (tally : Tally test count) (index : ι) (outcome : Bool) :
    (test index).toNat ≤ count ∧ Tally (Function.update test index outcome)
      (count - (test index).toNat + outcome.toNat) := by
  obtain ⟨members, exact_, rfl⟩ := tally
  have others (other : ι) : other ∈ members.erase index ↔ other ≠ index ∧ test other = true := by
    rw [Finset.mem_erase, exact_]
  have size : (members.erase index).card = members.card - (test index).toNat := by
    rw [Finset.card_erase_eq_ite]
    simp only [exact_]
    cases test index with
    | false | true => rfl
  refine ⟨?_, ?_⟩
  · cases tested : test index with
    | false => exact Nat.zero_le _
    | true => exact Finset.card_pos.mpr ⟨index, (exact_ index).mpr tested⟩
  · rw [← size]
    cases outcome with
    | false =>
      refine ⟨members.erase index, fun other => ?_, rfl⟩
      rw [others, Function.update_apply]
      split <;> simp_all
    | true =>
      refine ⟨insert index (members.erase index), fun other => ?_,
        Finset.card_insert_of_notMem (Finset.notMem_erase _ _)⟩
      rw [Finset.mem_insert, others, Function.update_apply]
      split <;> simp_all

namespace CallStage

def takesSlot : CallStage → Bool
  | .holding _ | .running _ _ | .completed _ _ => true
  | .idle | .queued | .done => false

def isProbe : CallStage → Bool
  | .running permit _ | .completed permit _ => permit.half
  | _ => false

variable {stage : CallStage}

theorem takesSlot_iff :
    stage.takesSlot = true ↔ stage.permit.isSome ∨ ∃ now, stage = .holding now := by
  cases stage <;> simp [takesSlot, permit]

theorem isProbe_iff :
    stage.isProbe = true ↔ ∃ admitted, stage.permit = some ({ half := true }, admitted) := by
  rcases stage with _ | _ | _ | ⟨⟨half⟩, _⟩ | ⟨⟨half⟩, _⟩ | _ <;> simp [isProbe, permit]

end CallStage

namespace ProtectorWorld

open CallStage

variable {ι : Type} {world after : ProtectorWorld ι}

structure Balanced (world : ProtectorWorld ι) : Prop where
  slots : ∃ taken : Nat, Tally (takesSlot ∘ world.calls) taken ∧ world.protector.active = taken ∧
    world.protector.slots + taken = world.protector.config.maxConcurrent
  probes : ∃ sent, Tally (isProbe ∘ world.calls) sent ∧ world.protector.circuit.half ≤ sent

variable [DecidableEq ι] {action : Action ι}

theorem Balanced.enter (balanced : Balanced world) {call : ι} {stage : CallStage}
    (moved : after.calls = Function.update world.calls call stage)
    (active : after.protector.active + (world.calls call).takesSlot.toNat =
      world.protector.active + stage.takesSlot.toNat)
    (slots : after.protector.slots + stage.takesSlot.toNat =
      world.protector.slots + (world.calls call).takesSlot.toNat)
    (half : after.protector.circuit.half ≤ world.protector.circuit.half -
      (world.calls call).isProbe.toNat + stage.isProbe.toNat)
    (config : after.protector.config = world.protector.config) : Balanced after := by
  obtain ⟨⟨taken, tally, counted, total⟩, sent, probes, bound⟩ := balanced
  obtain ⟨most, slotTally⟩ := tally.update call stage.takesSlot
  obtain ⟨_, probeTally⟩ := probes.update call stage.isProbe
  rw [← Function.comp_update, ← moved] at slotTally probeTally
  simp only [Function.comp_apply] at most slotTally probeTally
  refine ⟨⟨_, slotTally, ?_, ?_⟩, _, probeTally, ?_⟩
  · omega
  · rw [config]
    omega
  · omega

theorem Balanced.pass (balanced : Balanced world) {call : ι} {now : Nat}
    (holding : world.calls call = .holding now) : Balanced (world.pass call now) := by
  have fewer : (world.protector.circuit.awaken now).half ≤ world.protector.circuit.half := by
    rcases awaken_cases world.protector.circuit now with same | ⟨_, entered⟩
    · rw [same]
    · rw [entered]
      exact Nat.zero_le _
  refine balanced.enter rfl ?_ ?_ ?_ (passCircuit_config _ _)
  all_goals
    rw [holding]
    simp only [ProtectorWorld.pass, become, ProtectorWorld.enter, BackendProtector.passCircuit]
    split
    · simp [takesSlot, isProbe, fewer]
    · split
      all_goals simp [takesSlot, isProbe, fewer]

theorem Step.balanced (step : Step world action after) (balanced : Balanced world) :
    Balanced after := by
  cases step with
  | elapse => exact ⟨balanced.slots, balanced.probes⟩
  | enter _ here | refuse _ here | cancelQueued _ here =>
    refine balanced.enter rfl ?_ ?_ ?_ rfl
    all_goals
      rw [here]
      simp [ProtectorWorld.enter, takesSlot, isProbe, BackendProtector.rejectConcurrency]
  | takeSlot _ here free =>
    refine balanced.enter rfl ?_ ?_ ?_ rfl
    all_goals
      rw [here]
      simp [ProtectorWorld.enter, takesSlot, isProbe, BackendProtector.takeSlot]
    omega
  | pass _ _ holding => exact balanced.pass holding
  | complete call permit admitted failed running =>
    refine balanced.enter rfl ?_ ?_ ?_ (complete_config _ _ _ _)
    all_goals
      rw [running]
      simp only [ProtectorWorld.complete, become, ProtectorWorld.enter, BackendProtector.complete]
      split_ifs <;> simp [takesSlot, isProbe] <;> omega
  | drop call permit admitted held =>
    have taken : (world.calls call).takesSlot = true ∧ (world.calls call).isProbe = permit.half := by
      revert held
      cases world.calls call with
      | running | completed =>
        rintro ⟨⟩
        exact ⟨rfl, rfl⟩
      | _ => rintro ⟨⟩
    refine balanced.enter rfl ?_ ?_ ?_ rfl
    all_goals
      simp only [taken, ProtectorWorld.enter, BackendProtector.drop]
      simp [takesSlot, isProbe]
    cases permit.half <;> simp

theorem pass_admits {call : ι} {now : Nat} (unprobed : world.protector.circuit.half = 0)
    (positive : 0 < world.protector.config.halfOpenMax)
    (due : world.state = .opened → world.protector.circuit.openUntil.any (· ≤ now)) :
    ∃ permit period, (world.pass call now).calls call = .running permit period := by
  have ready : (world.protector.circuit.awaken now).state = .closed ∨
      (world.protector.circuit.awaken now).takesProbe world.protector.config = true := by
    cases state : world.protector.circuit.state with
    | closed => simp [Circuit.awaken, state]
    | opened => simp [Circuit.awaken, Circuit.takesProbe, state, due state, positive]
    | halfOpen => simp [Circuit.awaken, Circuit.takesProbe, state, unprobed, positive]
  simp only [pass, calls_enter, if_true, BackendProtector.passCircuit]
  split_ifs with probe closed
  · exact ⟨_, _, rfl⟩
  · exact ⟨_, _, rfl⟩
  · exact absurd ready (not_or.mpr ⟨closed, probe⟩)

/-- Slots and probes are given back exactly: with no permit out, the breaker takes the next call
once it is not open, or has been open for long enough. -/
theorem breaker_never_wedges {config : ProtectionConfig} {protector : BackendProtector}
    {clock : Nat} (created : BackendProtector.new config = .ok protector)
    (run : RunWhen (fun _ _ => True) Step (start protector clock) world) :
    ((∀ call now, world.calls call ≠ .holding now) → ∃ permits : Finset ι,
      (∀ call, call ∈ permits ↔ (world.calls call).permit.isSome) ∧
        world.protector.active = permits.card) ∧
    (∃ probes : Finset ι, (∀ call, call ∈ probes ↔
      ∃ admitted, (world.calls call).permit = some ({ half := true }, admitted)) ∧
        world.protector.circuit.half ≤ probes.card) ∧
    ((∀ call, (world.calls call).permit = none) →
      (∀ call now, world.calls call = .holding now →
        (world.state = .opened → world.protector.circuit.openUntil.any (· ≤ now)) →
        ∃ permit period, (world.pass call now).calls call = .running permit period) ∧
      ((∀ call now, world.calls call ≠ .holding now) →
        (world.state = .opened → world.protector.circuit.openUntil.any (· ≤ world.clock)) →
        0 < world.protector.slots ∧
          ∀ call, ∃ permit period, (world.acquire call).calls call = .running permit period)) := by
  have valid : 0 < config.maxConcurrent ∧ 0 < config.halfOpenMax ∧ protector.config = config ∧
      Balanced (start protector clock : ProtectorWorld ι) := by
    unfold BackendProtector.new at created
    split_ifs at created
    cases created
    have empty : Tally (fun _ : ι => false) 0 := ⟨∅, by simp, rfl⟩
    exact ⟨by omega, by omega, rfl, ⟨0, empty, rfl, rfl⟩, 0, empty, le_rfl⟩
  obtain ⟨concurrent, half, same, balanced⟩ := valid
  obtain ⟨⟨⟨taken, ⟨holders, slot, rfl⟩, active, slots⟩, sent, ⟨probes, probe, rfl⟩, bound⟩, kept⟩ :
      Balanced world ∧ world.protector.config = config :=
    run.invariant (fun _ _ _ _ step held => ⟨step.balanced held.1, step.config.trans held.2⟩)
      ⟨balanced, same⟩
  refine ⟨fun quiet => ⟨holders, fun call => (slot call).trans (takesSlot_iff.trans
      (or_iff_left (fun ⟨now, held⟩ => quiet call now held))), active⟩,
    ⟨probes, fun call => (probe call).trans isProbe_iff, bound⟩, fun free => ?_⟩
  have unprobed : world.protector.circuit.half = 0 := by
    refine Nat.le_zero.mp (bound.trans (Nat.le_zero.mpr (Finset.card_eq_zero.mpr ?_)))
    refine Finset.eq_empty_of_forall_notMem (fun call member => ?_)
    obtain ⟨_, held⟩ := isProbe_iff.mp ((probe call).mp member)
    cases (free call).symm.trans held
  refine ⟨fun call now _ due => pass_admits unprobed (kept ▸ half) due, fun quiet due => ⟨?_,
    fun call => @pass_admits _ _ _ call world.clock unprobed (kept ▸ half) due⟩⟩
  have empty : holders = ∅ := by
    refine Finset.eq_empty_of_forall_notMem (fun call member => ?_)
    rcases takesSlot_iff.mp ((slot call).mp member) with held | ⟨now, held⟩
    · rw [free] at held
      cases held
    · exact quiet call now held
  rw [empty, Finset.card_empty, Nat.add_zero, kept] at slots
  exact slots ▸ concurrent

theorem probing_counted : probing.protector.circuit.half = 1 ∧ ∃ probes : Finset Nat,
    (∀ call, call ∈ probes ↔
      ∃ admitted, (probing.calls call).permit = some ({ half := true }, admitted)) ∧
      probing.protector.circuit.half ≤ probes.card :=
  ⟨rfl, (breaker_never_wedges breaker_new (probing_runs fun _ _ _ _ => trivial)).2.1⟩

end ProtectorWorld

end Elura
