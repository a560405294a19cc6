import Elura.Basis.Runs
import Elura.Realtime.Session

/-!
The calls that drive a room: any number of `run` loops and of single `advance` calls, counted by
how far they are. A tick holds both of its locks from its beginning to its end and is one step.
-/

namespace Elura.Realtime

open Fallible Room

structure RoomLoop (σ C Sn π : Type) where
  room : Room σ C Sn π
  looping : Nat
  stopping : Nat
  advancing : Nat

inductive RoomAction (C : Type)
  | run
  | runTick
  | shutdown
  | finish
  | advance
  | advanceTick
  | submit (target : Nat) (command : Command C)

namespace RoomLoop

section Calls

variable {σ C Sn π : Type} (env : Environment σ C Sn π) (loop : RoomLoop σ C Sn π)

def advanceOne (room : Room σ C Sn π) : Except Error Unit × Room σ C Sn π :=
  Room.failTick ((Room.advanceInner env).call room)

/-- A refused call leaves everything as it is. The error of a tick ends `run` before it has cleared
the flag. -/
def step : RoomAction C → Option (RoomLoop σ C Sn π)
  | .run =>
    if loop.room.running then some loop
    else some { loop with
      room := { loop.room with running := true }, looping := loop.looping + 1 }
  | .runTick =>
    let (result, room) := advanceOne env loop.room
    if loop.looping = 0 then none
    else if result.toBool then some { loop with room }
    else some { loop with room, looping := loop.looping - 1 }
  | .shutdown =>
    if loop.looping = 0 then none
    else some { loop with looping := loop.looping - 1, stopping := loop.stopping + 1 }
  | .finish =>
    if loop.stopping = 0 then none
    else some { loop with
      room := { loop.room with running := false }, stopping := loop.stopping - 1 }
  | .advance =>
    if loop.room.running then some loop
    else some { loop with advancing := loop.advancing + 1 }
  | .advanceTick =>
    if loop.advancing = 0 then none
    else some { loop with
      room := (advanceOne env loop.room).2, advancing := loop.advancing - 1 }
  | .submit target command =>
    some { loop with room := ((Room.trySubmitAt target command).call loop.room).2 }

abbrev Reachable (allowed : RoomLoop σ C Sn π → RoomAction C → Prop) (room : Room σ C Sn π) :
    RoomLoop σ C Sn π → Prop :=
  RunWhen allowed (fun before action after => before.step env action = some after) ⟨room, 0, 0, 0⟩

/-- No tick of a `run` call fails. -/
def succeeds : RoomAction C → Bool
  | .runTick => (advanceOne env loop.room).1.toBool
  | _ => true

section Tick

variable {env} {room after : Room σ C Sn π}

theorem executeTick_number {executed : Room.Executed Sn}
    (ran : (Room.executeTick env).call room = (.ok executed, after)) :
    executed.tick.number = room.current + 1 := by
  simp only [executeTick, call_bind, call_get, call_set, call_modify] at ran
  split at ran
  · split at ran
    · cases ran
      rfl
    · cases ran
  · cases ran

theorem simulatePhase_number {late : Option Nat} {executed : Room.Executed Sn}
    (ran : (Room.simulatePhase env late).call room = (.ok executed, after)) :
    executed.tick.number = room.current + 1 := by
  have held : room.Controlled (fun control => control.2.1 = room.current) := rfl
  have kept := preserves_resimulateLate env (fun _ _ held => held) late room held
  simp only [simulatePhase, call_bind] at ran
  split at ran
  · rename_i resimulated
    rw [resimulated] at kept
    rw [executeTick_number ran]
    exact congrArg (· + 1) kept
  · cases ran

theorem advanceOne_spec (env : Environment σ C Sn π) (room : Room σ C Sn π) :
    (advanceOne env room).2.running = room.running ∧ ((advanceOne env room).1.toBool →
      (advanceOne env room).2.current = room.current + 1) := by
  have held : room.Controlled (fun control => control.2 = (room.current, room.running)) := rfl
  have drained := preserves_drainPhase env room held
  simp only [advanceOne, advanceInner, call_bind, call_modify]
  rcases first : (drainPhase env).call room with ⟨_ | late, merged⟩
  · rw [first] at drained
    exact ⟨congrArg Prod.snd drained, fun succeeded => by cases succeeded⟩
  · rw [first] at drained
    have simulated := preserves_simulatePhase env (fun _ _ held => held) late merged drained
    simp only
    rcases second : (simulatePhase env late).call merged with ⟨_ | executed, ahead⟩
    · rw [second] at simulated
      exact ⟨congrArg Prod.snd simulated, fun succeeded => by cases succeeded⟩
    · rw [second] at simulated
      obtain ⟨_, _, _, stored⟩ := ahead.storeCurrent_frame env executed
      have number : executed.tick.number = merged.current + 1 := simulatePhase_number second
      simp only [storeFinalized, stored, number]
      rw [show merged.current = room.current from congrArg Prod.fst drained]
      split
      all_goals exact ⟨congrArg Prod.snd simulated, fun _ => rfl⟩

end Tick

/-- In a strict loop the flag is never set without a `run` call. -/
structure Sound (strict : Prop) (loop : RoomLoop σ C Sn π) : Prop where
  single : loop.looping + loop.stopping ≤ 1
  flagged : loop.looping + loop.stopping = 0 ∨ loop.room.running = true
  exact : strict → loop.room.running = true → loop.looping + loop.stopping = 1

section Flag

variable {env loop} {strict : Prop} {after : RoomLoop σ C Sn π} {action : RoomAction C}
  {room : Room σ C Sn π}

theorem Sound.congr (sound : Sound strict loop)
    (counted : after.looping + after.stopping = loop.looping + loop.stopping)
    (same : after.room.running = loop.room.running) : Sound strict after := by
  obtain ⟨single, flagged, exact⟩ := sound
  constructor
  all_goals
    rw [counted]
    try rw [same]
    assumption

theorem Sound.step (sound : Sound strict loop)
    (succeeds : strict → loop.succeeds env action = true)
    (stepped : loop.step env action = some after) : Sound strict after := by
  have kept := (advanceOne_spec env loop.room).1
  have single := sound.single
  cases action with
  | run =>
    simp only [RoomLoop.step] at stepped
    split_ifs at stepped with busy
    · cases stepped
      exact sound
    · cases stepped
      have free := sound.flagged.resolve_right busy
      exact ⟨by simp; omega, .inr rfl, fun _ _ => by simp; omega⟩
  | runTick =>
    simp only [RoomLoop.step] at stepped
    split_ifs at stepped with idle ran
    · cases stepped
      exact sound.congr rfl kept
    · cases stepped
      exact ⟨by simp; omega, .inl (by simp; omega), fun tight => absurd (succeeds tight) ran⟩
  | shutdown =>
    simp only [RoomLoop.step] at stepped
    split_ifs at stepped
    cases stepped
    exact sound.congr (by simp; omega) rfl
  | finish =>
    simp only [RoomLoop.step] at stepped
    split_ifs at stepped
    cases stepped
    exact ⟨by simp; omega, .inl (by simp; omega), fun _ => nofun⟩
  | advance =>
    simp only [RoomLoop.step] at stepped
    split_ifs at stepped
    all_goals
      cases stepped
      exact sound.congr rfl rfl
  | advanceTick =>
    simp only [RoomLoop.step] at stepped
    split_ifs at stepped
    cases stepped
    exact sound.congr rfl kept
  | submit target command =>
    cases stepped
    refine sound.congr rfl ?_
    simp only [Room.trySubmitAt, call_bind, call_get, call_liftExcept]
    cases loop.room.validate target command with
    | error => rfl
    | ok =>
      simp only
      split
      all_goals rfl

theorem sound_of_reachable {allowed : RoomLoop σ C Sn π → RoomAction C → Prop}
    (succeeds : ∀ loop action, allowed loop action → strict → loop.succeeds env action = true)
    (stopped : room.running = false) (reached : Reachable env allowed room loop) :
    Sound strict loop := by
  refine reached.invariant (fun before action _ permitted stepped sound =>
    sound.step (succeeds before action permitted) stepped) ⟨zero_le_one, .inl rfl, fun _ set => ?_⟩
  rw [stopped] at set
  cases set

end Flag

/-- At most one loop is active and every successful tick moves the room on by one, in every run. A
room without a loop refuses neither call, in every run in which no tick of a loop has failed. -/
theorem room_resumes (env : Environment σ C Sn π) (room : Room σ C Sn π)
    (stopped : room.running = false) :
    (∀ loop, Reachable env (fun _ _ => True) room loop → loop.looping + loop.stopping ≤ 1 ∧
      ((advanceOne env loop.room).1.toBool →
        (advanceOne env loop.room).2.current = loop.room.current + 1)) ∧
    ∀ loop, Reachable env (fun loop action => loop.succeeds env action = true) room loop →
      loop.looping + loop.stopping = 0 →
        (loop.step env .run).map looping = some (loop.looping + 1) ∧
        (loop.step env .advance).map advancing = some (loop.advancing + 1) := by
  constructor
  · intro loop reached
    have sound : Sound False loop := sound_of_reachable (fun _ _ _ => nofun) stopped reached
    exact ⟨sound.single, (advanceOne_spec env loop.room).2⟩
  · intro loop reached idle
    have sound : Sound True loop := sound_of_reachable (fun _ _ held _ => held) stopped reached
    have clear : ¬loop.room.running = true := by
      intro set
      have held := sound.exact trivial set
      omega
    simp [step, clear]

end Calls

def sampleLoop (config : RoomConfig) : RoomLoop Nat Nat Nat Unit := ⟨counterRoom config, 0, 0, 0⟩

theorem room_resumes_stopped :
    ∃ loop, Reachable accepting (fun loop action => loop.succeeds accepting action = true)
        (counterRoom Session.sampleConfig) loop ∧ loop.room.current = 1 ∧
      (loop.step accepting .advance).map advancing = some (loop.advancing + 1) := by
  have followed : (follow (fun loop action => loop.succeeds accepting action = true)
      (step accepting) (sampleLoop Session.sampleConfig) [.run, .runTick, .shutdown, .finish]).any
        (fun loop => loop.room.current = 1 ∧ loop.looping + loop.stopping = 0) = true := by
    decide +kernel
  obtain ⟨loop, reached, ticked, idle⟩ := exists_run followed
  exact ⟨loop, reached, ticked, ((room_resumes accepting _ rfl).2 loop reached idle).2⟩

theorem failed_run_refuses :
    ∃ loop, Reachable Session.oversized (fun _ _ => True) (counterRoom Session.oversizedConfig)
        loop ∧ loop.looping + loop.stopping = 0 ∧
      (loop.step Session.oversized .run).map looping = some loop.looping ∧
      (loop.step Session.oversized .advance).map advancing = some loop.advancing :=
  exists_run (by decide +kernel : (follow (fun _ _ => True) (step Session.oversized)
    (sampleLoop Session.oversizedConfig) [.run, .runTick]).any _ = true)

end RoomLoop

end Elura.Realtime
