import Elura.Basis.Runs
import Elura.Basis.Rust
import Elura.Core.Values

/-!
The circuit breaker in front of the World. The circuit judges a reported call by the state it is
in by then, so a call that outlives the period it was admitted in is taken for one of the present
period.
-/

namespace Elura

structure ProtectionConfig where
  maxConcurrent : Nat
  queueTimeout : Duration
  failureThreshold : Nat
  openTimeout : Duration
  halfOpenMax : Nat
  deriving DecidableEq, Repr

def ProtectionConfig.default : ProtectionConfig where
  maxConcurrent := 1024
  queueTimeout := 10000000
  failureThreshold := 5
  openTimeout := Duration.ofSecs 5
  halfOpenMax := 1

inductive CircuitState
  | closed
  | opened
  | halfOpen
  deriving DecidableEq, Repr

structure Circuit where
  state : CircuitState
  fails : Nat
  openUntil : Option Nat
  half : Nat
  deriving DecidableEq, Repr

structure Permit where
  half : Bool
  deriving DecidableEq, Repr

structure BackendProtector where
  config : ProtectionConfig
  slots : Nat
  circuit : Circuit
  active : Int
  accepted : Nat
  rejectedConcurrency : Nat
  rejectedCircuit : Nat
  failures : Nat
  opened : Nat
  deriving DecidableEq, Repr

/-- An open circuit whose time has come asks for probes. -/
def Circuit.awaken (circuit : Circuit) (now : Nat) : Circuit :=
  if circuit.state = .opened ∧ circuit.openUntil.any (· ≤ now) then
    { circuit with state := .halfOpen, half := 0 }
  else circuit

def Circuit.takesProbe (circuit : Circuit) (config : ProtectionConfig) : Bool :=
  circuit.state = .halfOpen && circuit.half < config.halfOpenMax

namespace BackendProtector

def new (config : ProtectionConfig) : Except Error BackendProtector :=
  if config.maxConcurrent = 0 ∨ config.failureThreshold = 0 ∨ config.openTimeout = 0 ∨
      config.halfOpenMax = 0 then
    .error (.invalidConfig "backend protection")
  else .ok
    { config
      slots := config.maxConcurrent
      circuit := { state := .closed, fails := 0, openUntil := none, half := 0 }
      active := 0
      accepted := 0
      rejectedConcurrency := 0
      rejectedCircuit := 0
      failures := 0
      opened := 0 }

def takeSlot (protector : BackendProtector) : BackendProtector :=
  { protector with slots := protector.slots - 1, active := protector.active + 1 }

def rejectConcurrency (protector : BackendProtector) : BackendProtector :=
  { protector with rejectedConcurrency := protector.rejectedConcurrency + 1 }

def passCircuit (protector : BackendProtector) (now : Nat) :
    Except Error Permit × BackendProtector :=
  let circuit := protector.circuit.awaken now
  if circuit.takesProbe protector.config then
    (.ok { half := true }, { protector with
      circuit := { circuit with half := circuit.half + 1 }
      accepted := protector.accepted + 1 })
  else if circuit.state = .closed then
    (.ok { half := false }, { protector with circuit, accepted := protector.accepted + 1 })
  else
    (.error .unavailable, { protector with
      circuit
      active := protector.active - 1
      rejectedCircuit := protector.rejectedCircuit + 1
      slots := protector.slots + 1 })

def complete (protector : BackendProtector) (permit : Permit) (failed : Bool) (now : Nat) :
    BackendProtector :=
  let circuit := protector.circuit
  if failed then
    if permit.half ∨ protector.config.failureThreshold ≤ circuit.fails + 1 then
      { protector with
        failures := protector.failures + 1
        opened := protector.opened + 1
        circuit :=
          { state := .opened, fails := 0, half := 0
            openUntil := some (now + protector.config.openTimeout) } }
    else
      { protector with
        failures := protector.failures + 1
        circuit := { circuit with fails := circuit.fails + 1 } }
  else if circuit.state = .halfOpen then
    { protector with circuit := { state := .closed, fails := 0, openUntil := none, half := 0 } }
  else { protector with circuit := { circuit with fails := 0 } }

def drop (protector : BackendProtector) (permit : Permit) : BackendProtector :=
  { protector with
    circuit :=
      if permit.half then { protector.circuit with half := protector.circuit.half - 1 }
      else protector.circuit
    active := protector.active - 1
    slots := protector.slots + 1 }

end BackendProtector

/-- Where a call of `execute` stands. A permit carries the period in which the
call was admitted. -/
inductive CallStage
  | idle
  | queued
  | holding (now : Nat)
  | running (permit : Permit) (admitted : Nat)
  | completed (permit : Permit) (admitted : Nat)
  | done
  deriving DecidableEq, Repr

def CallStage.permit : CallStage → Option (Permit × Nat)
  | .running permit admitted | .completed permit admitted => some (permit, admitted)
  | _ => none

structure Completion where
  failed : Bool
  admitted : Nat
  ended : Nat
  deriving DecidableEq, Repr

/-- Calls over one protector. A period lasts as long as the circuit keeps its
state; `completions` is newest first. -/
structure ProtectorWorld (ι : Type) where
  protector : BackendProtector
  clock : Nat
  period : Nat
  calls : ι → CallStage
  completions : List Completion

namespace ProtectorWorld

variable {ι : Type}

def start (protector : BackendProtector) (clock : Nat) : ProtectorWorld ι where
  protector
  clock
  period := 0
  calls := fun _ => .idle
  completions := []

def state (world : ProtectorWorld ι) : CircuitState :=
  world.protector.circuit.state

def become (world : ProtectorWorld ι) (protector : BackendProtector) : ProtectorWorld ι :=
  { world with
    protector
    period := if protector.circuit.state = world.state then world.period else world.period + 1 }

theorem le_period_become (world : ProtectorWorld ι) (protector : BackendProtector) :
    world.period ≤ (world.become protector).period := by
  simp only [become]
  split <;> omega

def Probe (world : ProtectorWorld ι) (call : ι) : Prop :=
  (world.calls call).permit = some ({ half := true }, world.period)

def Past (world : ProtectorWorld ι) : Prop :=
  ∀ call permit admitted, (world.calls call).permit = some (permit, admitted) →
    admitted ≤ world.period

variable [DecidableEq ι]

def enter (world : ProtectorWorld ι) (call : ι) (stage : CallStage) : ProtectorWorld ι :=
  { world with calls := Function.update world.calls call stage }

def pass (world : ProtectorWorld ι) (call : ι) (now : Nat) : ProtectorWorld ι :=
  let next := world.become (world.protector.passCircuit now).2
  next.enter call (match (world.protector.passCircuit now).1 with
    | .ok permit => .running permit next.period
    | .error _ => .done)

def complete (world : ProtectorWorld ι) (call : ι) (permit : Permit) (admitted : Nat)
    (failed : Bool) : ProtectorWorld ι :=
  { (world.become (world.protector.complete permit failed world.clock)).enter call
      (.completed permit admitted) with
    completions := { failed, admitted, ended := world.period } :: world.completions }

inductive Action (ι : Type)
  | elapse (later : Nat)
  | enter (call : ι)
  | refuse (call : ι)
  | cancelQueued (call : ι)
  | takeSlot (call : ι)
  | pass (call : ι)
  | complete (call : ι) (failed : Bool)
  | drop (call : ι)

/-- A call that is dropped while it runs has been cancelled. -/
inductive Step (world : ProtectorWorld ι) : Action ι → ProtectorWorld ι → Prop
  | elapse (later : Nat) (forward : world.clock ≤ later) :
      Step world (.elapse later) { world with clock := later }
  | enter (call : ι) (idle : world.calls call = .idle) :
      Step world (.enter call) (world.enter call .queued)
  | refuse (call : ι) (waiting : world.calls call = .queued) :
      Step world (.refuse call)
        ({ world with protector := world.protector.rejectConcurrency }.enter call .done)
  | cancelQueued (call : ι) (waiting : world.calls call = .queued) :
      Step world (.cancelQueued call) (world.enter call .done)
  | takeSlot (call : ι) (waiting : world.calls call = .queued)
      (free : 0 < world.protector.slots) :
      Step world (.takeSlot call)
        ({ world with protector := world.protector.takeSlot }.enter call (.holding world.clock))
  | pass (call : ι) (now : Nat) (holding : world.calls call = .holding now) :
      Step world (.pass call) (world.pass call now)
  | complete (call : ι) (permit : Permit) (admitted : Nat) (failed : Bool)
      (running : world.calls call = .running permit admitted) :
      Step world (.complete call failed) (world.complete call permit admitted failed)
  | drop (call : ι) (permit : Permit) (admitted : Nat)
      (held : (world.calls call).permit = some (permit, admitted)) :
      Step world (.drop call)
        ({ world with protector := world.protector.drop permit }.enter call .done)

theorem calls_enter (world : ProtectorWorld ι) (call other : ι) (stage : CallStage) :
    (world.enter call stage).calls other = if other = call then stage else world.calls other := by
  simp only [enter, Function.update_apply]

section

variable (protector : BackendProtector)
include protector

/-- What becomes of the circuit when a call passes it. -/
theorem passCircuit_cases (now : Nat) :
    (protector.circuit.awaken now).takesProbe protector.config = true ∧
        (protector.passCircuit now).1 = .ok { half := true } ∧
        (protector.passCircuit now).2.circuit = { protector.circuit.awaken now with
          half := (protector.circuit.awaken now).half + 1 } ∨
      (protector.circuit.awaken now).state = .closed ∧
        (protector.passCircuit now).1 = .ok { half := false } ∧
        (protector.passCircuit now).2.circuit = protector.circuit.awaken now ∨
      (protector.circuit.awaken now).state ≠ .closed ∧
        (protector.passCircuit now).1 = .error .unavailable ∧
        (protector.passCircuit now).2.circuit = protector.circuit.awaken now := by
  unfold BackendProtector.passCircuit
  simp only
  split
  · rename_i probe
    exact .inl ⟨probe, rfl, rfl⟩
  · split
    · rename_i closed
      exact .inr (.inl ⟨closed, rfl, rfl⟩)
    · rename_i barred
      exact .inr (.inr ⟨barred, rfl, rfl⟩)

theorem passCircuit_config (now : Nat) :
    (protector.passCircuit now).2.config = protector.config := by
  unfold BackendProtector.passCircuit
  simp only
  split
  · rfl
  · split <;> rfl

theorem passCircuit_state (now : Nat) :
    (protector.passCircuit now).2.circuit.state = (protector.circuit.awaken now).state := by
  rcases passCircuit_cases protector now with
    ⟨_, _, circuit⟩ | ⟨_, _, circuit⟩ | ⟨_, _, circuit⟩ <;> rw [circuit]

theorem passCircuit_fails (now : Nat) :
    (protector.passCircuit now).2.circuit.fails = (protector.circuit.awaken now).fails := by
  rcases passCircuit_cases protector now with
    ⟨_, _, circuit⟩ | ⟨_, _, circuit⟩ | ⟨_, _, circuit⟩ <;> rw [circuit]

end

theorem awaken_cases (circuit : Circuit) (now : Nat) :
    circuit.awaken now = circuit ∨ circuit.state = .opened ∧
      circuit.awaken now = { circuit with state := .halfOpen, half := 0 } := by
  unfold Circuit.awaken
  split
  · rename_i due
    exact .inr ⟨due.1, rfl⟩
  · exact .inl rfl

theorem complete_cases (protector : BackendProtector) (permit : Permit) (failed : Bool)
    (now : Nat) :
    failed = true ∧ (permit.half = true ∨
          protector.config.failureThreshold ≤ protector.circuit.fails + 1) ∧
        (protector.complete permit failed now).circuit =
          { state := .opened, fails := 0, half := 0
            openUntil := some (now + protector.config.openTimeout) } ∨
      failed = true ∧ permit.half = false ∧
        protector.circuit.fails + 1 < protector.config.failureThreshold ∧
        (protector.complete permit failed now).circuit =
          { protector.circuit with fails := protector.circuit.fails + 1 } ∨
      failed = false ∧ protector.circuit.state = .halfOpen ∧
        (protector.complete permit failed now).circuit =
          { state := .closed, fails := 0, openUntil := none, half := 0 } ∨
      failed = false ∧ protector.circuit.state ≠ .halfOpen ∧
        (protector.complete permit failed now).circuit =
          { protector.circuit with fails := 0 } := by
  unfold BackendProtector.complete
  cases failed with
  | true =>
    simp only [if_true]
    split
    · rename_i opens
      exact .inl ⟨trivial, opens, rfl⟩
    · rename_i stays
      refine .inr (.inl ⟨trivial, ?_, ?_, rfl⟩)
      · simpa using fun half => stays (.inl half)
      · exact Nat.lt_of_not_le (fun reached => stays (.inr reached))
  | false =>
    simp only [Bool.false_eq_true, if_false]
    split
    · rename_i half
      exact .inr (.inr (.inl ⟨trivial, half, rfl⟩))
    · rename_i other
      exact .inr (.inr (.inr ⟨trivial, other, rfl⟩))

theorem complete_config (protector : BackendProtector) (permit : Permit) (failed : Bool)
    (now : Nat) : (protector.complete permit failed now).config = protector.config := by
  unfold BackendProtector.complete
  simp only
  split
  · split <;> rfl
  · split <;> rfl

section Periods

variable {world after : ProtectorWorld ι} {action : Action ι}

omit [DecidableEq ι] in
theorem Past.protector (past : Past world) (protector : BackendProtector) :
    Past { world with protector } :=
  past

theorem Past.enter (past : Past world) {call : ι} {stage : CallStage}
    (known : ∀ permit admitted, stage.permit = some (permit, admitted) →
      admitted ≤ world.period) : Past (world.enter call stage) := by
  intro other permit admitted held
  rw [calls_enter] at held
  split at held
  · exact known permit admitted held
  · exact past other permit admitted held

omit [DecidableEq ι] in
theorem Past.become (past : Past world) (protector : BackendProtector) :
    Past (world.become protector) :=
  fun call permit admitted held =>
    (past call permit admitted held).trans (le_period_become world protector)

theorem Step.past (step : Step world action after) (past : Past world) : Past after := by
  cases step with
  | elapse => exact past
  | enter | cancelQueued => exact past.enter nofun
  | refuse | takeSlot => exact (past.protector _).enter nofun
  | pass =>
    refine (past.become _).enter ?_
    intro permit admitted held
    split at held
    · cases held
      exact le_rfl
    · exact nomatch held
  | complete call permit admitted _ running =>
    have bound := past call permit admitted (by rw [running]; rfl)
    refine Past.enter (past.become _) ?_
    rintro _ _ ⟨⟩
    exact bound.trans (le_period_become world _)
  | drop _ _ _ held =>
    exact (past.protector _).enter nofun

def awake (world : ProtectorWorld ι) (now : Nat) : ProtectorWorld ι :=
  world.become { world.protector with circuit := world.protector.circuit.awaken now }

omit [DecidableEq ι] in
theorem awake_cases (world : ProtectorWorld ι) (now : Nat) :
    world.awake now = world ∨ world.state = .opened ∧
      (world.awake now).period = world.period + 1 ∧ (world.awake now).protector.circuit =
        { world.protector.circuit with state := .halfOpen, half := 0 } := by
  rcases awaken_cases world.protector.circuit now with same | ⟨opened, entered⟩
  · left
    simp only [awake, become, same, state, if_true]
  · exact .inr ⟨opened, by simp [awake, become, entered, state, opened], entered⟩

theorem pass_eq (world : ProtectorWorld ι) (call : ι) (now : Nat) :
    world.pass call now = { world.awake now with
      protector := (world.protector.passCircuit now).2 }.enter call
        (match (world.protector.passCircuit now).1 with
          | .ok permit => .running permit (world.awake now).period
          | .error _ => .done) := by
  simp only [pass, awake, become, passCircuit_state]

theorem probe_enter {call : ι} {stage : CallStage}
    (same : stage.permit = (world.calls call).permit) (other : ι) :
    (world.enter call stage).Probe other ↔ world.Probe other := by
  unfold Probe
  rw [calls_enter]
  split
  · rename_i named
    rw [same, named]
    exact Iff.rfl
  · exact Iff.rfl

theorem Step.config (step : Step world action after) :
    after.protector.config = world.protector.config := by
  cases step with
  | pass => exact passCircuit_config _ _
  | complete => exact complete_config _ _ _ _
  | _ => rfl

theorem new_ok {config : ProtectionConfig} {protector : BackendProtector}
    (created : BackendProtector.new config = .ok protector) :
    protector.config = config ∧ 0 < config.failureThreshold ∧
      protector.circuit = { state := .closed, fails := 0, openUntil := none, half := 0 } := by
  unfold BackendProtector.new at created
  split at created
  · cases created
  · rename_i accepted
    cases created
    exact ⟨rfl, by omega, rfl⟩

example : (BackendProtector.new .default).isOk = true := rfl

omit [DecidableEq ι] in
theorem past_start (protector : BackendProtector) (clock : Nat) :
    Past (start protector clock : ProtectorWorld ι) :=
  nofun

def acquire (world : ProtectorWorld ι) (call : ι) : ProtectorWorld ι :=
  ({ world.enter call .queued with protector := world.protector.takeSlot }.enter call
    (.holding world.clock)).pass call world.clock

theorem acquire_runs {allowed : ProtectorWorld ι → Action ι → Prop} {first : ProtectorWorld ι}
    (run : RunWhen allowed Step first world) (call : ι) (idle : world.calls call = .idle)
    (free : 0 < world.protector.slots)
    (permitted : ∀ world, allowed world (.enter call) ∧ allowed world (.takeSlot call) ∧
      allowed world (.pass call)) :
    RunWhen allowed Step first (world.acquire call) := by
  have queued := run.take (.enter call idle) (permitted _).1
  have holding := queued.take (.takeSlot call (Function.update_self _ _ _) free) (permitted _).2.1
  exact holding.take (.pass call world.clock (Function.update_self _ _ _)) (permitted _).2.2

end Periods

section Breaker

def breakerConfig : ProtectionConfig where
  maxConcurrent := 4
  queueTimeout := 0
  failureThreshold := 1
  openTimeout := 10
  halfOpenMax := 1

def breaker : BackendProtector where
  config := breakerConfig
  slots := 4
  circuit := { state := .closed, fails := 0, openUntil := none, half := 0 }
  active := 0
  accepted := 0
  rejectedConcurrency := 0
  rejectedCircuit := 0
  failures := 0
  opened := 0

def probing : ProtectorWorld Nat :=
  { (((start breaker 0).acquire 0).acquire 1).complete 1 { half := false } 0 true with
    clock := 10 }.acquire 2

theorem probing_runs {allowed : ProtectorWorld Nat → Action Nat → Prop}
    (permitted : ∀ world action, (∀ call, action ≠ .drop call) →
      (∀ call failed, action = .complete call failed →
        world.period = 0 ∧ world.calls call = .running { half := false } 0) →
      allowed world action) :
    RunWhen allowed Step (start breaker 0) probing := by
  have launch (call : Nat) (world : ProtectorWorld Nat) : allowed world (.enter call) ∧
      allowed world (.takeSlot call) ∧ allowed world (.pass call) :=
    ⟨permitted _ _ nofun nofun, permitted _ _ nofun nofun, permitted _ _ nofun nofun⟩
  have first := acquire_runs (RunWhen.refl (start breaker 0)) 0 rfl (by decide) (launch 0)
  have second := acquire_runs first 1 rfl (by decide) (launch 1)
  have failed := second.take (.complete 1 { half := false } 0 true rfl)
    (permitted _ _ nofun (by rintro call failed ⟨⟩; exact ⟨rfl, rfl⟩))
  have later := failed.take (.elapse 10 (by decide)) (permitted _ _ nofun nofun)
  exact acquire_runs later 2 rfl (by decide) (launch 2)

theorem breaker_new : BackendProtector.new breakerConfig = .ok breaker := rfl

end Breaker

end ProtectorWorld

end Elura
