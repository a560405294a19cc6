import Elura.Gateway.Protection

/-!
How many probes a half-open circuit has under way. The circuit's own count is
right as long as every probe permit that comes back while the circuit is half open
was handed out since it became half open.
-/

namespace Elura.ProtectorWorld

variable {ι : Type} [DecidableEq ι]

section Bound

variable {world after : ProtectorWorld ι} {action : Action ι}

omit [DecidableEq ι] in
/-- While the circuit is half open, a probe that ends or is cancelled is one of
the present half-open period. -/
def Returned (world : ProtectorWorld ι) : Action ι → Prop
  | .drop call => world.state = .halfOpen → ∀ permit admitted,
      (world.calls call).permit = some (permit, admitted) → permit.half = true →
        admitted = world.period
  | _ => True

omit [DecidableEq ι] in
def Counted (world : ProtectorWorld ι) : Prop :=
  world.state = .halfOpen → ∃ probes : Finset ι, (∀ call, call ∈ probes ↔ world.Probe call) ∧
    probes.card = world.protector.circuit.half ∧
    world.protector.circuit.half ≤ world.protector.config.halfOpenMax

section

variable (counted : Counted world)
include counted

omit [DecidableEq ι] in
theorem Counted.congr
    (state : after.state = .halfOpen → world.state = .halfOpen)
    (half : after.state = .halfOpen → after.protector.circuit.half = world.protector.circuit.half)
    (config : after.protector.config = world.protector.config)
    (probe : ∀ call, after.Probe call ↔ world.Probe call) : Counted after := by
  intro open_
  obtain ⟨probes, exact_, size, bound⟩ := counted (state open_)
  refine ⟨probes, fun call => (exact_ call).trans (probe call).symm, ?_, ?_⟩
  · rw [size, half open_]
  · rw [half open_, config]
    exact bound

omit [DecidableEq ι] in
theorem Counted.awake (past : Past world) (now : Nat) :
    Counted (world.awake now) := by
  rcases world.awake_cases now with unchanged | ⟨_, period, entered⟩
  · rw [unchanged]
    exact counted
  · intro _
    refine ⟨∅, fun call => ?_, ?_, ?_⟩
    · simp only [Finset.notMem_empty, false_iff]
      intro probe
      have early := past call _ _ probe
      omega
    all_goals simp [entered]

theorem Counted.pass (past : Past world) {call : ι} {now : Nat}
    (holding : world.calls call = .holding now) : Counted (world.pass call now) := by
  have ready := counted.awake past now
  have unheld : ((world.awake now).calls call).permit = none := by
    change (world.calls call).permit = none
    rw [holding]
    rfl
  rw [pass_eq]
  rcases passCircuit_cases world.protector now with
    ⟨probe, answer, circuit⟩ | ⟨closed, answer, circuit⟩ | ⟨barred, answer, circuit⟩
  · simp only [Circuit.takesProbe, Bool.and_eq_true, decide_eq_true_eq] at probe
    intro _
    obtain ⟨probes, exact_, size, _⟩ := ready probe.1
    have fresh : call ∉ probes := by
      rw [exact_, Probe, unheld]
      exact nofun
    refine ⟨insert call probes, fun other => ?_, ?_, ?_⟩
    · rw [Finset.mem_insert, exact_, Probe, Probe, calls_enter, answer]
      by_cases named : other = call
      · simp only [named, true_or, true_iff]
        rfl
      · simp only [named, false_or]
        rfl
    · rw [Finset.card_insert_of_notMem fresh, size]
      change _ = (world.protector.passCircuit now).2.circuit.half
      rw [circuit]
      rfl
    · change (world.protector.passCircuit now).2.circuit.half ≤
        (world.protector.passCircuit now).2.config.halfOpenMax
      rw [circuit, passCircuit_config]
      exact probe.2
  · intro open_
    change (world.protector.passCircuit now).2.circuit.state = .halfOpen at open_
    rw [circuit, closed] at open_
    cases open_
  · rw [answer]
    refine ready.congr ?_ ?_ ?_ ?_
    · intro open_
      change (world.protector.passCircuit now).2.circuit.state = .halfOpen at open_
      rwa [circuit] at open_
    · intro _
      change (world.protector.passCircuit now).2.circuit.half = _
      rw [circuit]
      rfl
    · exact passCircuit_config _ _
    · exact probe_enter (by exact unheld.symm)

theorem Counted.complete {call : ι} {permit : Permit} {admitted : Nat}
    (running : world.calls call = .running permit admitted) (failed : Bool) :
    Counted (world.complete call permit admitted failed) := by
  have left (changed : (world.protector.complete permit failed world.clock).circuit.state ≠
      .halfOpen) : Counted (world.complete call permit admitted failed) :=
    fun open_ => absurd open_ changed
  have kept {fails : Nat} (circuit : (world.protector.complete permit failed
      world.clock).circuit = { world.protector.circuit with fails }) :
      Counted (world.complete call permit admitted failed) := by
    have period : (world.complete call permit admitted failed).period = world.period := by
      simp [ProtectorWorld.complete, ProtectorWorld.enter, become, circuit, state]
    refine counted.congr ?_ ?_ (complete_config _ _ _ _) ?_
    · intro open_
      change (world.protector.complete permit failed world.clock).circuit.state = _ at open_
      rwa [circuit] at open_
    · intro _
      change (world.protector.complete permit failed world.clock).circuit.half = _
      rw [circuit]
    · intro other
      rw [← @probe_enter ι _ world call (.completed permit admitted) (by rw [running]; rfl) other]
      unfold Probe
      rw [period]
      rfl
  rcases complete_cases world.protector permit failed world.clock with
    ⟨_, _, circuit⟩ | ⟨_, _, _, circuit⟩ | ⟨_, _, circuit⟩ | ⟨_, _, circuit⟩
  · exact left (by rw [circuit]; exact CircuitState.noConfusion)
  · exact kept circuit
  · exact left (by rw [circuit]; exact CircuitState.noConfusion)
  · exact kept circuit

theorem Counted.drop {call : ι} {permit : Permit} {admitted : Nat}
    (held : (world.calls call).permit = some (permit, admitted))
    (returned : Returned world (.drop call)) :
    Counted ({ world with protector := world.protector.drop permit }.enter call .done) := by
  intro open_
  have half : world.state = .halfOpen := by
    change (world.protector.drop permit).circuit.state = .halfOpen at open_
    simp only [BackendProtector.drop] at open_
    split at open_ <;> exact open_
  obtain ⟨probes, exact_, size, bound⟩ := counted half
  refine ⟨probes.erase call, fun other => ?_, ?_, ?_⟩
  · rw [Finset.mem_erase, exact_, Probe, Probe, calls_enter]
    by_cases named : other = call
    · simp [named, CallStage.permit]
    · simp only [named, ne_eq, not_false_eq_true, true_and]
      rfl
  · change _ = (world.protector.drop permit).circuit.half
    cases probe : permit.half with
    | true =>
      have present : call ∈ probes := by
        rw [exact_, Probe, held, returned half permit admitted held probe, ← probe]
      rw [Finset.card_erase_of_mem present, size]
      simp [BackendProtector.drop, probe]
    | false =>
      have absent : call ∉ probes := by
        rw [exact_, Probe, held]
        rintro ⟨⟩
        cases probe
      rw [Finset.erase_eq_of_notMem absent, size]
      simp [BackendProtector.drop, probe]
  · change (world.protector.drop permit).circuit.half ≤ world.protector.config.halfOpenMax
    simp only [BackendProtector.drop]
    split
    · exact (Nat.sub_le _ _).trans bound
    · exact bound

end

theorem Step.counted (step : Step world action after) (past : Past world)
    (returned : Returned world action) (counted : Counted world) : Counted after := by
  cases step with
  | elapse => exact counted
  | enter _ here | cancelQueued _ here =>
    exact counted.congr id (fun _ => rfl) rfl (probe_enter (by rw [here]; rfl))
  | refuse _ waiting | takeSlot _ waiting =>
    exact counted.congr id (fun _ => rfl) rfl (@probe_enter ι _ { world with protector := _ } _ _
      (by rw [waiting]; rfl))
  | pass _ _ holding => exact counted.pass past holding
  | complete _ _ _ failed running => exact counted.complete running failed
  | drop _ _ _ held => exact counted.drop held returned

end Bound

end Elura.ProtectorWorld
