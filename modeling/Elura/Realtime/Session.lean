import Elura.Realtime.Phases

/-!
Runs of a room in which no submission overlaps an advance. `log` keeps the final
command list of every tick, also of those trimmed from the history.
-/

namespace Elura.Realtime

open Fallible

structure Session (σ C Sn π : Type) where
  room : Room σ C Sn π
  log : Nat → List (Command C)

namespace Session

section Steps

variable {σ C Sn π : Type}

def start (room : Room σ C Sn π) : Session σ C Sn π := { room, log := fun _ => [] }

def submitted (session : Session σ C Sn π) (target : Nat) (command : Command C) :
    Session σ C Sn π :=
  { session with room := ((Room.trySubmitAt target command).call session.room).2 }

def afterAdvance (env : Environment σ C Sn π) (session : Session σ C Sn π) :
    Session σ C Sn π :=
  { room := (session.room.advance env).2
    log := logged (session.room.advance env).2.history session.log }

/-- One call on the room; `allowed` restricts the states in which it is advanced. -/
inductive Step (env : Environment σ C Sn π) (allowed : Session σ C Sn π → Prop) :
    Session σ C Sn π → Session σ C Sn π → Prop
  | trySubmitAt (session : Session σ C Sn π) (target : Nat) (command : Command C) :
      Step env allowed session (session.submitted target command)
  | submitAt (session : Session σ C Sn π) (target : Nat) (command : Command C)
      (outcome : Except Error Unit × Room σ C Sn π)
      (completed : session.room.submitAt target command = some outcome) :
      Step env allowed session { session with room := outcome.2 }
  | advance (session : Session σ C Sn π) (permitted : allowed session) :
      Step env allowed session (session.afterAdvance env)

abbrev Reachable (env : Environment σ C Sn π) (allowed : Session σ C Sn π → Prop) :
    Session σ C Sn π → Session σ C Sn π → Prop :=
  Relation.ReflTransGen (Step env allowed)

end Steps

section Invariant

variable {σ C Sn π : Type} {env : Environment σ C Sn π} {initial : σ} {config : RoomConfig}
variable {room : Room σ C Sn π} {session : Session σ C Sn π}

structure Invariant (env : Environment σ C Sn π) (initial : σ) (config : RoomConfig)
    (session : Session σ C Sn π) : Prop where
  configured : session.room.config = config
  interval : session.room.delta = Room.tickDelta config.tickRate
  running : session.room.running = false
  idle : Idle env initial session.log session.room
  queued : ∀ input ∈ session.room.queue, session.room.finalized < input.target

def Submission (before after : Room σ C Sn π) : Prop :=
  (∃ counters, after = { before with counters }) ∨
    ∃ target command, before.validate target command = .ok () ∧
      after = before.enqueue target command

theorem submission_trySubmitAt (room : Room σ C Sn π) (target : Nat) (command : Command C) :
    Submission room ((Room.trySubmitAt target command).call room).2 := by
  simp only [Room.trySubmitAt, call_bind, call_get, call_liftExcept]
  cases valid : room.validate target command with
  | error => exact .inl ⟨room.counters, rfl⟩
  | ok =>
    simp only
    split
    · exact .inr ⟨target, command, valid, rfl⟩
    · exact .inl ⟨_, rfl⟩

theorem submission_submitAt {target : Nat} {command : Command C}
    {outcome : Except Error Unit × Room σ C Sn π}
    (completed : room.submitAt target command = some outcome) : Submission room outcome.2 := by
  unfold Room.submitAt at completed
  cases valid : room.validate target command with
  | error =>
    simp only [valid, Option.some.injEq] at completed
    subst outcome
    exact .inl ⟨room.counters, rfl⟩
  | ok =>
    simp only [valid] at completed
    split_ifs at completed
    cases completed
    exact .inr ⟨target, command, valid, rfl⟩

theorem Invariant.submission (invariant : Invariant env initial config session)
    (submission : Submission session.room room) :
    Invariant env initial config { session with room } := by
  rcases submission with ⟨counters, rfl⟩ | ⟨target, command, valid, rfl⟩
  · exact ⟨invariant.configured, invariant.interval, invariant.running,
      invariant.idle.submission _ _, invariant.queued⟩
  · have floor := invariant.idle.floor
    refine ⟨invariant.configured, invariant.interval, invariant.running,
      invariant.idle.submission _ _,
      List.forall_mem_append.mpr ⟨invariant.queued, List.forall_mem_singleton.mpr ?_⟩⟩
    unfold Room.validate at valid
    split_ifs at valid
    change session.room.finalized < target
    omega

section

variable (contract : Contract env config.maxSnapshotBytes)
include contract

theorem Invariant.advance
    (invariant : Invariant env initial config session)
    (replayable : session.room.Replayable env initial session.log) :
    (session.room.advance env).1 = .ok () ∧
      Invariant env initial config (session.afterAdvance env) ∧
      (session.afterAdvance env).room.initialized = true ∧
      (session.afterAdvance env).room.current = session.room.current + 1 := by
  obtain ⟨after, advanced, idle, initialized, current, emptied, steady⟩ :=
    Room.advance_ok (invariant.configured ▸ contract) invariant.idle
      (fun input member => by have := invariant.queued input member; omega)
      (Room.quiet_of_targets _ _ invariant.queued) invariant.running replayable
  simp only [afterAdvance, advanced]
  refine ⟨trivial, ⟨?_, ?_, ?_, idle, ?_⟩, initialized, current⟩
  · rw [steady.config, invariant.configured]
  · rw [steady.delta, invariant.interval]
  · rw [steady.running, invariant.running]
  · intro input member
    rw [emptied] at member
    cases member

theorem Invariant.advance_iff
    (invariant : Invariant env initial config session) :
    (session.room.advance env).1 = .ok () ↔ session.room.Replayable env initial session.log := by
  constructor
  · intro succeeded
    by_contra refused
    exact Room.advance_error (invariant.configured ▸ contract) invariant.idle
      (fun input member => by have := invariant.queued input member; omega)
      (Room.quiet_of_targets _ _ invariant.queued) refused succeeded
  · exact fun replayable => (invariant.advance contract replayable).1

theorem invariant_reachable {allowed : Session σ C Sn π → Prop}
    (enough : ∀ session, Invariant env initial config session → allowed session →
      session.room.Replayable env initial session.log) {first : Session σ C Sn π}
    (invariant : Invariant env initial config first)
    (reachable : Reachable env allowed first session) : Invariant env initial config session := by
  induction reachable with
  | refl => exact invariant
  | tail _ step ih =>
    cases step with
    | trySubmitAt target command => exact ih.submission (submission_trySubmitAt _ target command)
    | submitAt _ _ _ completed =>
      exact ih.submission (submission_submitAt completed)
    | advance permitted => exact (ih.advance contract (enough _ ih permitted)).2.1

end

theorem invariant_start {id : String}
    {observer : Option (List (Observation C Sn) → Except Error Unit)}
    (created : Room.withObserver id config initial observer = .ok room) (publisher : Option π) :
    Invariant env initial config (start { room with publisher }) := by
  rw [withObserver_ok created]
  refine ⟨rfl, rfl, rfl, idle_fresh env id config initial observer publisher, ?_⟩
  intro input member
  cases member

end Invariant

section Sample

def sampleConfig : RoomConfig := { RoomConfig.default with rollbackWindowTicks := 2 }

def oversizedConfig : RoomConfig := { sampleConfig with maxSnapshotBytes := 1 }

def oversized : Environment Nat Nat Nat Unit :=
  { accepting with
    simulation := { accepting.simulation with encodeSnapshot := fun _ _ => .ok [0, 0] } }

def sampleStart (value : Nat) : Session Nat Nat Nat Unit :=
  (start (counterRoom sampleConfig)).submitted 2 (counterCommand 1 value)

/-- A command for tick 2, two advances, and a late command for tick 1. -/
def sampleRun (env : Environment Nat Nat Nat Unit) (value late : Nat) :
    Session Nat Nat Nat Unit :=
  (((sampleStart value).afterAdvance env).afterAdvance env).submitted 1 (counterCommand 2 late)

theorem sampleRun_reachable {env : Environment Nat Nat Nat Unit}
    {allowed : Session Nat Nat Nat Unit → Prop} (value late : Nat)
    (first : allowed (sampleStart value))
    (second : allowed ((sampleStart value).afterAdvance env)) :
    Reachable env allowed (start (counterRoom sampleConfig)) (sampleRun env value late) :=
  (((Relation.ReflTransGen.single (.trySubmitAt _ 2 (counterCommand 1 value))).tail
    (.advance _ first)).tail (.advance _ second)).tail (.trySubmitAt _ 1 (counterCommand 2 late))

end Sample

section Results

variable {σ C Sn π : Type}

/-- Rollback is invisible: after every advance the history is a window of the
timeline that a fresh simulation produces from the final command lists. -/
theorem rollback_in_order (env : Environment σ C Sn π) (id : String) (config : RoomConfig)
    (initial : σ) (observer : Option (List (Observation C Sn) → Except Error Unit))
    (publisher : Option π) (room : Room σ C Sn π)
    (created : Room.withObserver id config initial observer = .ok room)
    (contract : Contract env config.maxSnapshotBytes)
    (accepting : ∀ command state, (env.simulation.apply command state).1 = .ok ())
    (session : Session σ C Sn π)
    (reachable : Reachable env (fun _ => True) (start { room with publisher }) session) :
    ∃ after, session.room.advance env = (.ok (), after) ∧
      (∀ time, (∃ record, after.history[time]? = some record) ↔
        after.current - config.rollbackWindowTicks ≤ time ∧ time ≤ after.current) ∧
      (∀ time earlier later state, after.history[time]? = some earlier →
        after.history[time + 1]? = some later →
        env.simulation.snapshot (after.tick (time + 1))
          (tickState env.simulation after.delta (time + 1) later.commands
            (env.simulation.restore (after.tick time) earlier.snapshot state).2) =
          .ok later.snapshot) ∧
      (∃ record, after.history[after.current]? = some record ∧
        env.simulation.snapshot (after.tick after.current) after.simulation =
          .ok record.snapshot) ∧
      (∀ time record, after.history[time]? = some record →
        record.commands = (session.afterAdvance env).log time) ∧
      after.simulation = stateAt env.simulation (Room.tickDelta config.tickRate) initial
        (session.afterAdvance env).log after.current := by
  have replayable : ∀ session : Session σ C Sn π, Invariant env initial config session → True →
      session.room.Replayable env initial session.log := by
    intro session _ _ first _ time _ _
    exact accepted_of_ok accepting _ _
  have invariant := invariant_reachable contract replayable
    (invariant_start created publisher) reachable
  obtain ⟨succeeded, next, initialized, _⟩ :=
    invariant.advance contract (replayable session invariant trivial)
  have coherent := (next.idle.synced initialized).history
  have floor := next.idle.floor
  rw [next.configured] at floor
  have captured : ∀ time record, (session.room.advance env).2.history[time]? = some record →
      Captures env ((session.room.advance env).2.tick time)
        (stateAt env.simulation (session.room.advance env).2.delta initial
          (session.afterAdvance env).log time) record.snapshot record.hash := by
    intro time record found
    exact (coherent.recorded found).2 (Nat.lt_succ_of_le (coherent.inside found).2)
  refine ⟨(session.room.advance env).2, Prod.ext succeeded rfl, ?_, ?_, ?_,
    fun time record found => (coherent.recorded found).1, ?_⟩
  · intro time
    constructor
    · rintro ⟨record, found⟩
      have window := coherent.inside found
      rw [floor] at window
      exact window
    · intro window
      obtain ⟨record, found, _⟩ := coherent.retained time (floor ▸ window.1) window.2
      exact ⟨record, found⟩
  · intro time earlier later state foundEarlier foundLater
    have before := captured time earlier foundEarlier
    have after := captured (time + 1) later foundLater
    rw [contract.restore _ _ state _ before.taken, (coherent.recorded foundLater).1]
    exact after.taken
  · obtain ⟨record, found, _⟩ := coherent.retained _ (by rw [floor]; omega) le_rfl
    refine ⟨record, found, ?_⟩
    have live := next.idle.live
    change (session.room.advance env).2.simulation = _ at live
    rw [live]
    exact (captured _ record found).taken
  · have live := next.idle.live
    rw [next.interval] at live
    exact live

theorem rollback_in_order_sampleRun :
    ∃ after, (sampleRun accepting 1 2).room.advance accepting = (.ok (), after) ∧
      after.current = 3 ∧ after.simulation = 3 ∧
      ∀ time, (∃ record, after.history[time]? = some record) ↔ 1 ≤ time ∧ time ≤ 3 := by
  obtain ⟨after, advanced, retained, _⟩ := rollback_in_order accepting "counter" sampleConfig 0
    none none (counterRoom sampleConfig) rfl (counter_contract _ (by decide)) (fun _ _ => rfl) _
    (sampleRun_reachable 1 2 trivial trivial)
  have evaluated : ((sampleRun accepting 1 2).room.advance accepting).2.current = 3 ∧
      ((sampleRun accepting 1 2).room.advance accepting).2.simulation = 3 := by
    decide +kernel
  rw [advanced] at evaluated
  refine ⟨after, advanced, evaluated.1, evaluated.2, ?_⟩
  intro time
  rw [retained time, evaluated.1]
  rfl

/-- No method of this simulation fails, and yet the room cannot be advanced: the
encoding of its snapshots is longer than the room allows. -/
theorem oversized_snapshot_fails :
    Room.withObserver "counter" oversizedConfig 0 none = .ok (counterRoom oversizedConfig) ∧
      (∀ command state, (oversized.simulation.apply command state).1 = .ok ()) ∧
      (∀ tick state, (oversized.simulation.step tick state).1 = .ok ()) ∧
      (∀ tick state, ∃ snapshot, oversized.simulation.snapshot tick state = .ok snapshot) ∧
      (∀ snapshot state, oversized.simulation.encodeSnapshot snapshot state = .ok [0, 0]) ∧
      (∀ tick state other snapshot, oversized.simulation.snapshot tick state = .ok snapshot →
        oversized.simulation.restore tick snapshot other = (.ok (), state)) ∧
      ((counterRoom oversizedConfig).advance oversized).1 =
        .error (.invalidFrame "snapshot too large") := by
  refine ⟨rfl, fun _ _ => rfl, fun _ _ => rfl, fun _ state => ⟨state, rfl⟩, fun _ _ => rfl, ?_, ?_⟩
  · intro tick state other snapshot taken
    cases taken
    rfl
  · decide +kernel

/-- As long as every advance was replayable, the next one succeeds exactly if it
is replayable; rejected commands are then recorded nowhere. -/
theorem rejection_harmless_iff (env : Environment σ C Sn π) (id : String) (config : RoomConfig)
    (initial : σ) (observer : Option (List (Observation C Sn) → Except Error Unit))
    (publisher : Option π) (room : Room σ C Sn π)
    (created : Room.withObserver id config initial observer = .ok room)
    (contract : Contract env config.maxSnapshotBytes) (session : Session σ C Sn π)
    (reachable : Reachable env (fun session => session.room.Replayable env initial session.log)
      (start { room with publisher }) session) :
    ((session.room.advance env).1 = .ok () ∧
      (session.afterAdvance env).room.current = session.room.current + 1 ∧
      (session.afterAdvance env).room.simulation =
        stateAt env.simulation (Room.tickDelta config.tickRate) initial
          (session.afterAdvance env).log (session.afterAdvance env).room.current ∧
      ∀ time < (session.afterAdvance env).room.current,
        Accepted env.simulation ((session.afterAdvance env).log (time + 1))
          (stateAt env.simulation (Room.tickDelta config.tickRate) initial
            (session.afterAdvance env).log time)) ↔
      session.room.Replayable env initial session.log := by
  have invariant := invariant_reachable contract (fun _ _ permitted => permitted)
    (invariant_start created publisher) reachable
  constructor
  · intro harmless
    exact (invariant.advance_iff contract).mp harmless.1
  · intro replayable
    obtain ⟨succeeded, next, initialized, current⟩ := invariant.advance contract replayable
    have live := next.idle.live
    have accepted := (next.idle.synced initialized).accepted
    rw [next.interval] at live accepted
    exact ⟨succeeded, current, live, fun time below => accepted time below (Nat.succ_lt_succ below)⟩

theorem rejection_harmless_iff_sampleRun :
    (sampleRun rejecting 0 2).room.drain.2 = some 1 ∧
      ((sampleRun rejecting 0 2).room.advance rejecting).1 = .ok () := by
  have late : (sampleRun rejecting 0 2).room.drain.2 = some 1 := by decide +kernel
  have punctual : (sampleStart 0).room.drain.2 = none ∧
      ((sampleStart 0).afterAdvance rejecting).room.drain.2 = none := by decide +kernel
  have accepted : ∀ time < (sampleRun rejecting 0 2).room.current, Accepted rejecting.simulation
      (logged (sampleRun rejecting 0 2).room.drain.1.history (sampleRun rejecting 0 2).log (time + 1))
      (stateAt rejecting.simulation (sampleRun rejecting 0 2).room.delta 0
        (logged (sampleRun rejecting 0 2).room.drain.1.history (sampleRun rejecting 0 2).log)
        time) := by decide +kernel
  refine ⟨late, ((rejection_harmless_iff rejecting "counter" sampleConfig 0 none none
    (counterRoom sampleConfig) rfl (counter_contract _ (by decide)) _
    (sampleRun_reachable 0 2 ?_ ?_)).mpr ?_).1⟩
  · intro first chosen
    rw [punctual.1] at chosen
    cases chosen
  · intro first chosen
    rw [punctual.2] at chosen
    cases chosen
  · exact fun _ _ time _ below => accepted time below

theorem late_rejection_fails :
    Room.withObserver "counter" sampleConfig 0 none = .ok (counterRoom sampleConfig) ∧
      Contract rejecting sampleConfig.maxSnapshotBytes ∧
      (sampleRun rejecting 1 0).room.current = 2 ∧
      (sampleRun rejecting 1 0).room.simulation = 1 ∧
      ((sampleRun rejecting 1 0).room.advance rejecting).1 = .error .unavailable ∧
      ((sampleRun rejecting 1 0).room.advance rejecting).2.current = 2 ∧
      ((sampleRun rejecting 1 0).room.advance rejecting).2.simulation = 0 := by
  refine ⟨rfl, counter_contract _ (by decide), ?_⟩
  decide +kernel

end Results

end Session

end Elura.Realtime
