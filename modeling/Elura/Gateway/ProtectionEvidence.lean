import Elura.Gateway.Protection

/-!
Why the circuit changes its state. A reported call is judged by the state the
circuit is in at that moment, so the judgement is about the present period only if
the call was admitted in it.
-/

namespace Elura.ProtectorWorld

variable {ι : Type} [DecidableEq ι]

section Evidence

variable {world after : ProtectorWorld ι} {action : Action ι}

omit [DecidableEq ι] in
/-- A call that ends in another period than it was admitted in does not fail, and
does not end while the circuit is half open. -/
def Timely (world : ProtectorWorld ι) : Action ι → Prop
  | .complete call failed => ∀ permit admitted, world.calls call = .running permit admitted →
      admitted = world.period ∨ failed = false ∧ world.state ≠ .halfOpen
  | _ => True

omit [DecidableEq ι] in
structure Evidenced (world : ProtectorWorld ι) : Prop where
  kind : ∀ call permit, (world.calls call).permit = some (permit, world.period) →
    world.state ≠ .opened ∧ (permit.half = true ↔ world.state = .halfOpen)
  calm : world.state ≠ .closed → world.protector.circuit.fails = 0
  recent : world.state = .closed → ∃ rest, world.completions =
    List.replicate world.protector.circuit.fails ⟨true, world.period, world.period⟩ ++ rest

theorem Evidenced.enter (evidenced : Evidenced world) {call : ι} {stage : CallStage}
    (kind : ∀ permit, stage.permit = some (permit, world.period) →
      world.state ≠ .opened ∧ (permit.half = true ↔ world.state = .halfOpen)) :
    Evidenced (world.enter call stage) where
  kind := fun other permit held => by
    rw [calls_enter] at held
    split at held
    · exact kind permit held
    · exact evidenced.kind other permit held
  calm := evidenced.calm
  recent := evidenced.recent

omit [DecidableEq ι] in
theorem Evidenced.protector (evidenced : Evidenced world) (protector : BackendProtector)
    (state : protector.circuit.state = world.state)
    (fails : protector.circuit.fails = world.protector.circuit.fails) :
    Evidenced { world with protector } where
  kind := fun call permit held => by
    rw [ProtectorWorld.state, state]
    exact evidenced.kind call permit held
  calm := fun other => by
    rw [fails]
    exact evidenced.calm (state ▸ other)
  recent := fun closed => by
    rw [fails]
    exact evidenced.recent (state.symm.trans closed)

omit [DecidableEq ι] in
theorem Evidenced.begin (past : Past world) (period : after.period = world.period + 1)
    (calls : ∀ call, (after.calls call).permit = (world.calls call).permit)
    (calm : after.protector.circuit.fails = 0) : Evidenced after where
  kind := fun call permit held => by
    rw [calls] at held
    have early := past call permit _ held
    omega
  calm := fun _ => calm
  recent := fun _ => ⟨after.completions, by rw [calm]; rfl⟩

omit [DecidableEq ι] in
theorem Evidenced.awake (evidenced : Evidenced world) (past : Past world) (now : Nat) :
    Evidenced (world.awake now) := by
  rcases world.awake_cases now with unchanged | ⟨opened, period, entered⟩
  · rw [unchanged]
    exact evidenced
  · refine Evidenced.begin past period (fun _ => rfl) ?_
    rw [entered]
    exact evidenced.calm (by simp [opened])

theorem Evidenced.pass (evidenced : Evidenced world) (past : Past world) (call : ι) (now : Nat) :
    Evidenced (world.pass call now) := by
  have ready := evidenced.awake past now
  have entered := ready.protector (world.protector.passCircuit now).2
    (passCircuit_state world.protector now) (passCircuit_fails world.protector now)
  rw [pass_eq]
  rcases passCircuit_cases world.protector now with
    ⟨probe, answer, circuit⟩ | ⟨closed, answer, circuit⟩ | ⟨barred, answer, circuit⟩
  · refine entered.enter ?_
    have half : (world.protector.circuit.awaken now).state = .halfOpen := by
      simp only [Circuit.takesProbe, Bool.and_eq_true, decide_eq_true_eq] at probe
      exact probe.1
    rw [answer]
    rintro permit ⟨⟩
    simp [state, circuit, half]
  · refine entered.enter ?_
    rw [answer]
    rintro permit ⟨⟩
    simp [state, circuit, closed]
  · refine entered.enter ?_
    rw [answer]
    rintro permit ⟨⟩

theorem Evidenced.complete (evidenced : Evidenced world) (past : Past world) {call : ι}
    {permit : Permit} {admitted : Nat} {failed : Bool}
    (running : world.calls call = .running permit admitted)
    (timely : Timely world (.complete call failed)) :
    Evidenced (world.complete call permit admitted failed) := by
  have calls (other : ι) : ((world.complete call permit admitted failed).calls other).permit =
      (world.calls other).permit := by
    change ((world.enter call (.completed permit admitted)).calls other).permit = _
    rw [calls_enter]
    split
    · rename_i named
      rw [named, running]
      rfl
    · rfl
  have current (fails : failed = true) : admitted = world.period := by
    rcases timely permit admitted running with same | ⟨succeeded, _⟩
    · exact same
    · rw [fails] at succeeded
      cases succeeded
  have held (same : admitted = world.period) :
      (world.calls call).permit = some (permit, world.period) := by
    rw [running, same]
    rfl
  have fresh (changed : (world.protector.complete permit failed world.clock).circuit.state ≠
      world.state) : (world.complete call permit admitted failed).period = world.period + 1 :=
    if_neg changed
  have kept (same : (world.protector.complete permit failed world.clock).circuit.state =
      world.state) : (world.complete call permit admitted failed).period = world.period :=
    if_pos same
  rcases complete_cases world.protector permit failed world.clock with
    ⟨fails, _, circuit⟩ | ⟨fails, normal, _, circuit⟩ | ⟨succeeded, half, circuit⟩ |
      ⟨succeeded, other, circuit⟩
  · have known := (evidenced.kind call permit (held (current fails))).1
    exact Evidenced.begin past (fresh (by rw [circuit]; exact known.symm)) calls
      (congrArg Circuit.fails circuit)
  · have same := current fails
    obtain ⟨unopened, kind⟩ := evidenced.kind call permit (held same)
    have closed : world.state = .closed := by
      cases known : world.state with
      | closed => rfl
      | opened => exact absurd known unopened
      | halfOpen => exact absurd (kind.mpr known) (by simp [normal])
    have state : (world.complete call permit admitted failed).state = .closed := by
      change (world.protector.complete permit failed world.clock).circuit.state = _
      rw [circuit]
      exact closed
    have period := kept (state.trans closed.symm)
    refine ⟨?_, fun open_ => absurd state open_, fun _ => ?_⟩
    · intro other permit held
      rw [calls, period] at held
      rw [state, ← closed]
      exact evidenced.kind other permit held
    · obtain ⟨rest, found⟩ := evidenced.recent closed
      have counted : (world.complete call permit admitted failed).protector.circuit.fails =
          world.protector.circuit.fails + 1 := congrArg Circuit.fails circuit
      refine ⟨rest, ?_⟩
      rw [counted, period, List.replicate_succ, List.cons_append, ← found]
      simp only [ProtectorWorld.complete, fails, same]
  · exact Evidenced.begin past (fresh (by simp [circuit, state, half])) calls
      (congrArg Circuit.fails circuit)
  · have state : (world.complete call permit admitted failed).state = world.state := by
      change (world.protector.complete permit failed world.clock).circuit.state = _
      rw [circuit]
      rfl
    have period := kept state
    have cleared : (world.complete call permit admitted failed).protector.circuit.fails = 0 :=
      congrArg Circuit.fails circuit
    refine ⟨?_, fun _ => cleared, fun _ => ⟨_, by rw [cleared]; rfl⟩⟩
    intro other permit held
    rw [calls, period] at held
    rw [state]
    exact evidenced.kind other permit held

theorem Step.evidenced (step : Step world action after) (past : Past world)
    (timely : Timely world action) (evidenced : Evidenced world) : Evidenced after := by
  cases step with
  | elapse => exact ⟨evidenced.kind, evidenced.calm, evidenced.recent⟩
  | enter | cancelQueued => exact evidenced.enter nofun
  | refuse =>
    exact (evidenced.protector world.protector.rejectConcurrency rfl rfl).enter nofun
  | takeSlot =>
    exact (evidenced.protector world.protector.takeSlot rfl rfl).enter nofun
  | pass call now => exact evidenced.pass past call now
  | complete _ _ _ _ running => exact evidenced.complete past running timely
  | drop _ permit =>
    have circuit : (world.protector.drop permit).circuit.state = world.state ∧
        (world.protector.drop permit).circuit.fails = world.protector.circuit.fails := by
      simp only [BackendProtector.drop]
      split <;> exact ⟨rfl, rfl⟩
    exact (evidenced.protector _ circuit.1 circuit.2).enter nofun

/-- The steps at which the circuit closes or opens. -/
theorem Step.transition (step : Step world action after) (changed : after.state ≠ world.state)
    (closes : after.state ≠ .halfOpen) : ∃ call permit admitted failed,
      action = .complete call failed ∧ world.calls call = .running permit admitted ∧
      after = world.complete call permit admitted failed := by
  cases step with
  | complete call permit admitted failed running =>
    exact ⟨call, permit, admitted, failed, rfl, running, rfl⟩
  | pass call now =>
    have state : (world.pass call now).state = (world.protector.circuit.awaken now).state :=
      passCircuit_state world.protector now
    rw [state] at changed closes
    rcases awaken_cases world.protector.circuit now with same | ⟨_, entered⟩
    · rw [same] at changed
      exact absurd rfl changed
    · rw [entered] at closes
      exact absurd rfl closes
  | drop _ permit =>
    refine absurd ?_ changed
    change (world.protector.drop permit).circuit.state = world.state
    simp only [BackendProtector.drop]
    split <;> rfl
  | _ => exact absurd rfl changed

/-- In every timely run the circuit closes only on the success of a probe of its half-open period,
and opens only on the failure of such a probe or on enough consecutive failures of calls of its
closed period. -/
theorem circuit_follows_evidence {config : ProtectionConfig} {protector : BackendProtector}
    {clock : Nat} (created : BackendProtector.new config = .ok protector)
    (run : RunWhen Timely Step (start protector clock) world) (step : Step world action after)
    (timely : Timely world action) :
    (world.state = .halfOpen → after.state = .closed →
      ∃ call, action = .complete call false ∧ world.Probe call) ∧
    (world.state ≠ .opened → after.state = .opened →
      (world.state = .halfOpen ∧ ∃ call, action = .complete call true ∧ world.Probe call) ∨
      (world.state = .closed ∧ ∃ rest, after.completions =
        List.replicate config.failureThreshold ⟨true, world.period, world.period⟩ ++ rest)) := by
  obtain ⟨same, _, circuit⟩ := new_ok created
  have started : Evidenced (start protector clock : ProtectorWorld ι) :=
    ⟨fun _ _ held => (nomatch held), fun _ => congrArg Circuit.fails circuit,
      fun _ => ⟨[], by simp [start, circuit]⟩⟩
  obtain ⟨past, evidenced, configured⟩ : Past world ∧ Evidenced world ∧
      world.protector.config = config :=
    run.invariant
      (fun _ _ _ timely step held => ⟨step.past held.1, step.evidenced held.1 timely held.2.1,
        step.config.trans held.2.2⟩)
      ⟨past_start protector clock, started, same⟩
  have probe {call : ι} {permit : Permit} (half : world.state = .halfOpen)
      (held : (world.calls call).permit = some (permit, world.period)) : world.Probe call := by
    have kind := (evidenced.kind call permit held).2.mpr half
    rw [Probe, held, ← kind]
  refine ⟨fun half closes => ?_, fun unopened opens => ?_⟩
  · obtain ⟨call, permit, admitted, failed, rfl, running, rfl⟩ := step.transition
      (by rw [half, closes]; exact nofun) (by rw [closes]; exact nofun)
    rcases timely permit admitted running with same | ⟨_, other⟩
    · refine ⟨call, ?_, probe half (by rw [running, same]; rfl)⟩
      rcases complete_cases world.protector permit failed world.clock with
        ⟨_, _, circuit⟩ | ⟨_, _, _, circuit⟩ | ⟨succeeded, _⟩ | ⟨succeeded, _⟩
      · cases (congrArg Circuit.state circuit).symm.trans closes
      · cases half.symm.trans ((congrArg Circuit.state circuit).symm.trans closes)
      · rw [succeeded]
      · rw [succeeded]
    · exact absurd half other
  · obtain ⟨call, permit, admitted, failed, rfl, running, rfl⟩ := step.transition
      (by rw [opens]; exact unopened.symm) (by rw [opens]; exact nofun)
    rcases complete_cases world.protector permit failed world.clock with
      ⟨fails, reached, _⟩ | ⟨_, _, _, circuit⟩ | ⟨_, _, circuit⟩ | ⟨_, _, circuit⟩
    · have same : admitted = world.period := by
        rcases timely permit admitted running with same | ⟨succeeded, _⟩
        · exact same
        · cases fails.symm.trans succeeded
      have held : (world.calls call).permit = some (permit, world.period) := by
        rw [running, same]
        rfl
      cases known : world.state with
      | opened => exact absurd known unopened
      | halfOpen => exact .inl ⟨rfl, call, by rw [fails], probe known held⟩
      | closed =>
        have normal : permit.half ≠ true := fun half => by
          cases known.symm.trans ((evidenced.kind call permit held).2.mp half)
        have enough := reached.resolve_left normal
        obtain ⟨rest, found⟩ := evidenced.recent known
        rw [configured] at enough
        obtain ⟨extra, size⟩ := Nat.exists_eq_add_of_le enough
        refine .inr ⟨rfl, List.replicate extra ⟨true, world.period, world.period⟩ ++ rest, ?_⟩
        rw [← List.append_assoc, List.replicate_append_replicate, ← size, List.replicate_succ,
          List.cons_append, ← found]
        simp only [ProtectorWorld.complete, fails, same]
    · exact absurd ((congrArg Circuit.state circuit).symm.trans opens) unopened
    · cases (congrArg Circuit.state circuit).symm.trans opens
    · exact absurd ((congrArg Circuit.state circuit).symm.trans opens) unopened

theorem probing_evidence : RunWhen Timely Step (start breaker 0) probing ∧
    ∃ after : ProtectorWorld Nat, Step probing (.complete 2 false) after ∧
      after.state = .closed ∧ ∃ call, Action.complete 2 false = Action.complete call false ∧
        probing.Probe call := by
  have run : RunWhen Timely Step (start breaker 0) probing := by
    refine probing_runs (fun world action _ known => ?_)
    cases action with
    | complete call failed =>
      intro permit admitted running
      obtain ⟨period, known⟩ := known call failed rfl
      cases running.symm.trans known
      exact .inl period.symm
    | _ => trivial
  refine ⟨run, _, .complete 2 { half := true } 2 false rfl, rfl, ?_⟩
  refine (circuit_follows_evidence breaker_new run (.complete 2 { half := true } 2 false rfl) ?_).1 rfl rfl
  intro permit admitted running
  cases (show CallStage.running _ _ = _ from running)
  exact .inl rfl

/-- A call of the first closed period succeeds while the circuit waits for its
probe, and the circuit closes. -/
theorem late_success_closes : ∃ world after : ProtectorWorld Nat,
    BackendProtector.new breakerConfig = .ok breaker ∧
      RunWhen (fun _ _ => True) Step (start breaker 0) world ∧
      Step world (.complete 0 false) after ∧ world.state = .halfOpen ∧ after.state = .closed ∧
      ¬world.Probe 0 := by
  refine ⟨probing, _, rfl, probing_runs (fun _ _ _ _ => trivial),
    .complete 0 { half := false } 0 false rfl, rfl, rfl, ?_⟩
  exact fun probe => nomatch (show some _ = some _ from probe)

end Evidence

end Elura.ProtectorWorld
