import Elura.Realtime.Session

/-!
What an observer sees of a room whose commands are never late: an advance makes a fixed list of
calls.
-/

namespace Elura.Realtime

open Fallible List Function

structure Scheduler (C : Type) where
  pending : List (Scheduled C)
  sequences : PlayerKey → Option Nat
  order : Nat

namespace Scheduler

variable {C : Type}
variable (limit : Nat) (scheduler : Scheduler C)

def add (limit : Nat) (scheduler : Scheduler C) (input : Submitted C) : Scheduler C :=
  if input.command.sequence ≤ (scheduler.sequences input.command.player).getD 0 then scheduler
  else if limit ≤ scheduler.pending.length then scheduler
  else
    { sequences :=
        Function.update scheduler.sequences input.command.player (some input.command.sequence)
      order := scheduler.order + 1
      pending := scheduler.pending.orderedInsert Scheduled.Before
        { target := input.target, order := scheduler.order + 1, command := input.command } }

def addAll (limit : Nat) (scheduler : Scheduler C) (inputs : List (Submitted C)) : Scheduler C :=
  inputs.foldl (add limit) scheduler

theorem length_addAll (inputs : List (Submitted C))
    (bounded : scheduler.pending.length ≤ limit) :
    (scheduler.addAll limit inputs).pending.length ≤ limit := by
  induction inputs generalizing scheduler with
  | nil => exact bounded
  | cons input _ ih =>
    refine ih _ ?_
    unfold add
    split_ifs
    · exact bounded
    · exact bounded
    · rw [orderedInsert_length]
      omega

theorem pending_addAll {holds : Command C → Prop}
    (inputs : List (Submitted C)) (before : ∀ item ∈ scheduler.pending, holds item.command)
    (received : ∀ input ∈ inputs, holds input.command) :
    ∀ item ∈ (scheduler.addAll limit inputs).pending, holds item.command := by
  induction inputs generalizing scheduler with
  | nil => exact before
  | cons input _ ih =>
    refine ih (scheduler.add limit input) ?_ (fun other member => received other (by simp [member]))
    unfold add
    split_ifs
    · exact before
    · exact before
    · intro item member
      rcases (mem_orderedInsert _).mp member with rfl | old
      · exact received input (by simp)
      · exact before item old

end Scheduler

section Transcript

variable {σ C Sn π : Type}

def snapshotCalls (env : Environment σ C Sn π) (tick : Tick) (state : σ) :
    List (Observation C Sn) :=
  match env.simulation.snapshot tick state with
  | .error _ => []
  | .ok snapshot =>
    match env.simulation.encodeSnapshot snapshot state with
    | .error _ => []
    | .ok bytes => [.snapshot tick snapshot (.digest env.sha256 bytes)]

def tickCalls (env : Environment σ C Sn π) (interval delta number : Nat)
    (commands : List (Command C)) (state : σ) : List (Observation C Sn) :=
  commands.map (.command number) ++ .tick (tickAt delta number) ::
    if number % interval = 0 then snapshotCalls env (tickAt delta number) state else []

def transcript (env : Environment σ C Sn π) (config : RoomConfig) (initial : σ)
    (log : Nat → List (Command C)) : Nat → List (Observation C Sn)
  | 0 => []
  | time + 1 =>
    transcript env config initial log time ++
      tickCalls env config.snapshotInterval (Room.tickDelta config.tickRate) (time + 1)
        (log (time + 1))
        (stateAt env.simulation (Room.tickDelta config.tickRate) initial log (time + 1))

theorem transcript_congr (env : Environment σ C Sn π) (config : RoomConfig) (initial : σ)
    {log other : Nat → List (Command C)} (time : Nat)
    (same : ∀ entry, 0 < entry → entry ≤ time → log entry = other entry) :
    transcript env config initial log time = transcript env config initial other time := by
  induction time with
  | zero => rfl
  | succ time ih =>
    rw [transcript, transcript, ih (fun entry positive below => same entry positive (by omega)),
      stateAt_congr (time + 1) same, same (time + 1) (by omega) le_rfl]

end Transcript

namespace Room

section Punctual

variable {σ C Sn π : Type} {env : Environment σ C Sn π} {initial : σ}
variable {log : Nat → List (Command C)}
variable {room : Room σ C Sn π}

def scheduler (room : Room σ C Sn π) : Scheduler C :=
  { pending := room.pending, sequences := room.sequences, order := room.order }

def upcoming (room : Room σ C Sn π) : Scheduler C :=
  room.scheduler.addAll room.config.maxPendingCommands room.queue

def taken (room : Room σ C Sn π) : List (Scheduled C) :=
  due (room.current + 1) room.config.maxCommandsPerTick room.upcoming.pending

theorem due_eq_take (number limit : Nat) (pending : List (Scheduled C)) :
    ∃ count ≤ limit, due number limit pending = pending.take count := by
  induction limit generalizing pending with
  | zero => exact ⟨0, le_rfl, rfl⟩
  | succ _ ih =>
    cases pending with
    | nil => exact ⟨0, Nat.zero_le _, rfl⟩
    | cons _ rest =>
      unfold due
      split_ifs
      · exact ⟨0, Nat.zero_le _, rfl⟩
      · obtain ⟨count, bound, same⟩ := ih rest
        exact ⟨count + 1, Nat.succ_le_succ bound, by rw [same, take_succ_cons]⟩

theorem receive_punctual {input : Submitted C} (future : room.current < input.target) :
    ∃ counters, room.receive none input =
      ({ room with
         counters
         pending := (room.scheduler.add room.config.maxPendingCommands input).pending
         sequences := (room.scheduler.add room.config.maxPendingCommands input).sequences
         order := (room.scheduler.add room.config.maxPendingCommands input).order }, none) := by
  have notLate := Nat.not_le.mpr future
  let received := { room.counters with received := room.counters.received + 1 }
  by_cases duplicate : input.command.sequence ≤ (room.sequences input.command.player).getD 0
  · refine ⟨{ received with duplicates := received.duplicates + 1 }, ?_⟩
    simp only [receive, count, Scheduler.add, scheduler, duplicate, if_true, received]
  · by_cases full : room.config.maxPendingCommands ≤ room.pending.length
    · refine ⟨{ received with rejected := received.rejected + 1 }, ?_⟩
      simp only [receive, count, Scheduler.add, scheduler, duplicate, notLate, full, if_true,
        if_false, received]
    · refine ⟨received, ?_⟩
      simp only [receive, count, Scheduler.add, scheduler, duplicate, notLate, full, if_false,
        received]

theorem drainQueue_punctual (inputs : List (Submitted C)) (room : Room σ C Sn π)
    (punctual : ∀ input ∈ inputs, room.current < input.target) :
    ∃ counters, drainQueue inputs room none =
      ({ room with
         counters
         pending := (room.scheduler.addAll room.config.maxPendingCommands inputs).pending
         sequences := (room.scheduler.addAll room.config.maxPendingCommands inputs).sequences
         order := (room.scheduler.addAll room.config.maxPendingCommands inputs).order }, none) := by
  induction inputs generalizing room with
  | nil => exact ⟨room.counters, rfl⟩
  | cons input _ ih =>
    obtain ⟨counters, received⟩ := receive_punctual (punctual input (by simp))
    simp only [drainQueue, received]
    exact ih _ (fun other member => punctual other (by simp [member]))

structure Advanced (env : Environment σ C Sn π) (initial : σ) (log : Nat → List (Command C))
    (before after : Room σ C Sn π) : Prop where
  idle : Idle env initial
    (Function.update log (before.current + 1) (before.taken.map (·.command))) after
  initialized : after.initialized = true
  current : after.current = before.current + 1
  queue : after.queue = []
  steady : Steady before after
  observer : after.observer = before.observer
  scheduler : after.scheduler =
    { before.upcoming with pending := before.upcoming.pending.drop before.taken.length }
  observations : after.observations = before.noted (tickCalls env before.config.snapshotInterval
    before.delta (before.current + 1) (before.taken.map (·.command)) after.simulation)

theorem drainPhase_punctual (contract : Contract env room.config.maxSnapshotBytes)
    (idle : Idle env initial log room)
    (punctual : ∀ input ∈ room.queue, room.current < input.target) :
    ∃ history counters drained, (drainPhase env).call room = (.ok none, drained) ∧
      drained = { room with
        queue := [], initialized := true, counters, history
        pending := room.upcoming.pending
        sequences := room.upcoming.sequences
        order := room.upcoming.order } ∧
      Synced env initial log drained room.current (room.current + 1) := by
  have floor := idle.floor
  have later : ∀ input ∈ room.queue, room.finalized < input.target := by
    intro input member
    have future := punctual input member
    omega
  obtain ⟨counters, history, started, synced, _⟩ := initializeHistory_synced contract idle
    (fun input member => by have := later input member; omega) (quiet_of_targets _ _ later)
  obtain ⟨final, scheduled⟩ := drainQueue_punctual room.queue
    { room with queue := [], initialized := true, counters, history } punctual
  refine ⟨history, final, _, ?_, rfl, { synced with }⟩
  simp only [drainPhase, call_bind, started, call_get, drain, scheduled]
  rfl

theorem store_punctual {executed : Executed Sn} (ahead : Ahead env initial log room executed)
    (captures : Captures env executed.tick room.simulation executed.snapshot executed.hash) :
    ∃ after, (room.storeCurrent env executed).storeFinalized executed.tick.number = after ∧
      Idle env initial log after ∧ after.initialized = true ∧
      after.current = room.current + 1 ∧ after.queue = room.queue ∧ Steady room after ∧
      after.observer = room.observer ∧ after.scheduler = room.scheduler ∧
      after.simulation = room.simulation ∧
      after.observations = room.noted
        (if executed.tick.number % room.config.snapshotInterval = 0 then
          snapshotCalls env executed.tick room.simulation else []) := by
  obtain ⟨stored, current, _⟩ := storeCurrent_stored ahead
  have number : executed.tick.number = (room.storeCurrent env executed).current := by
    rw [current, ahead.tick]
    rfl
  obtain ⟨idle, _, _, _, _, _, trimmed⟩ := storeFinalized_idle stored
  rw [← number] at idle trimmed
  obtain ⟨_, _, _, frame⟩ := room.storeCurrent_frame env executed
  refine ⟨_, rfl, idle, ?_, ?_, ?_, ?_, ?_, ?_, ?_, ?_⟩
  · rw [trimmed]
    exact stored.initialized
  · rw [trimmed]
    exact number.trans current
  · rw [trimmed, frame]
  · rw [trimmed, frame]
    exact ⟨rfl, rfl, rfl⟩
  · rw [trimmed, frame]
  · rw [trimmed, frame]
    rfl
  · rw [trimmed, frame]
  · rw [trimmed, frame]
    simp only
    split
    · obtain ⟨bytes, encoded, same⟩ := captures.hashed
      simp only [snapshotCalls, captures.taken, encoded, same]
    · rw [noted_nil]

theorem executeTick_punctual (contract : Contract env room.config.maxSnapshotBytes)
    (accepting : Accepts env) (synced : Synced env initial log room room.current (room.current + 1))
    (live : room.simulation = stateAt env.simulation room.delta initial log room.current)
    {taken : List (Scheduled C)}
    (chosen : due (room.current + 1) room.config.maxCommandsPerTick room.pending = taken) :
    ∃ executed after, (executeTick env).call room = (.ok executed, after) ∧
      executed.tick = room.tick (room.current + 1) ∧
      Ahead env initial (Function.update log (room.current + 1) (taken.map (·.command))) after
        executed ∧
      Captures env executed.tick after.simulation executed.snapshot executed.hash ∧
      after.queue = room.queue ∧ Steady room after ∧ after.current = room.current ∧
      after.observer = room.observer ∧
      after.scheduler =
        { room.scheduler with pending := room.scheduler.pending.drop taken.length } ∧
      after.observations = room.noted (taken.map (fun next => .command (room.current + 1) next.command)
        ++ [.tick (room.tick (room.current + 1))]) := by
  obtain ⟨commands, snapshot, hash, counters, executed, valid, captures, all⟩ :=
    executeTick_ok room contract
  rw [chosen] at executed all
  obtain rfl := all accepting
  obtain ⟨ahead, _⟩ := extend_synced synced live valid captures ⟨_, _, counters, rfl⟩
  exact ⟨_, _, executed, rfl, ahead, captures, rfl, ⟨rfl, rfl, rfl⟩, rfl, rfl, rfl, rfl⟩

theorem advance_punctual (contract : Contract env room.config.maxSnapshotBytes)
    (accepting : Accepts env) (idle : Idle env initial log room) (stopped : room.running = false)
    (punctual : ∀ input ∈ room.queue, room.current < input.target) :
    ∃ after, advance env room = (.ok (), after) ∧ Advanced env initial log room after := by
  obtain ⟨history, counters, drained, called, frame, synced⟩ :=
    drainPhase_punctual contract idle punctual
  obtain ⟨drainedSteady, current, live, upcoming, noted, queue, observer⟩ : Steady room drained ∧
      drained.current = room.current ∧ drained.simulation = room.simulation ∧
      drained.scheduler = room.upcoming ∧ (∀ calls, drained.noted calls = room.noted calls) ∧
      drained.queue = [] ∧ drained.observer = room.observer := by
    subst frame
    exact ⟨⟨rfl, rfl, rfl⟩, rfl, rfl, rfl, fun _ => rfl, rfl, rfl⟩
  have taken : due (drained.current + 1) drained.config.maxCommandsPerTick drained.pending =
      room.taken := by
    subst frame
    rfl
  clear frame
  obtain ⟨executed, ahead, simulated, tick, aheadState, captures, aheadQueue, aheadSteady,
      aheadCurrent, aheadObserver, aheadScheduler, aheadObservations⟩ :=
    executeTick_punctual (drainedSteady.config ▸ contract) accepting (current.symm ▸ synced)
      (by rw [live, drainedSteady.delta, current]; exact idle.live) taken
  obtain ⟨after, stored, idleAfter, initialized, afterCurrent, afterQueue, afterSteady,
      afterObserver, scheduler, simulation, observations⟩ := store_punctual aheadState captures
  refine ⟨after, ?_, ?_, initialized, ?_, ?_, ?_, ?_, ?_, ?_⟩
  · simp only [advance, stopped, Bool.false_eq_true, if_false, advanceInner, call_bind,
      called, simulatePhase, resimulateLate, call_get, call_pure, simulated,
      call_modify, stored, failTick]
  · rw [current] at idleAfter
    exact idleAfter
  · rw [afterCurrent, aheadCurrent, current]
  · rw [afterQueue, aheadQueue, queue]
  · exact (drainedSteady.trans aheadSteady).trans afterSteady
  · rw [afterObserver, aheadObserver, observer]
  · rw [scheduler, aheadScheduler, upcoming]
  · have number : executed.tick = tickAt room.delta (room.current + 1) := by
      rw [tick, Room.tick, drainedSteady.delta, current]
    have interval : ahead.config = room.config := aheadSteady.config.trans drainedSteady.config
    rw [observations, noted_append (aheadObserver.trans observer) (aheadObservations.trans (noted
      _)), simulation, interval, ← tick, number, current]
    simp only [tickCalls, map_map, append_assoc]
    rfl

theorem Advanced.logged {after : Room σ C Sn π} (advanced : Advanced env initial log room after) :
    logged after.history log =
      Function.update log (room.current + 1) (room.taken.map (·.command)) := by
  refine advanced.idle.logged_eq advanced.initialized (fun time outside => ?_)
  have floor := advanced.idle.floor
  have current := advanced.current
  exact update_of_ne (by omega) _ _

end Punctual

end Room

namespace Session

section Recorded

variable {σ C Sn π : Type} {env : Environment σ C Sn π} {initial : σ} {config : RoomConfig}
variable {room : Room σ C Sn π} {session : Session σ C Sn π}

structure Valid (command : Command C) : Prop where
  player : command.player.validate = .ok ()
  sequence : command.sequence ≠ 0

structure Batch (config : RoomConfig) (commands : List (Command C)) : Prop where
  executed : commands.length ≤ config.maxCommandsPerTick
  pending : commands.length ≤ config.maxPendingCommands
  valid : ∀ command ∈ commands, Valid command

structure Recorded (env : Environment σ C Sn π) (initial : σ) (config : RoomConfig)
    (session : Session σ C Sn π) : Prop where
  invariant : Invariant env initial config session
  observed : ∃ observer, session.room.observer = some observer
  punctual : ∀ input ∈ session.room.queue, session.room.current < input.target
  queued : ∀ input ∈ session.room.queue, Valid input.command
  pending : ∀ item ∈ session.room.pending, Valid item.command
  bounded : session.room.pending.length ≤ config.maxPendingCommands
  batches : ∀ time, 0 < time → time ≤ session.room.current → Batch config (session.log time)
  observations : session.room.observations =
    transcript env config initial session.log session.room.current

theorem validate_punctual {target : Nat} {command : Command C}
    (window : room.config.rollbackWindowTicks = 0) (valid : room.validate target command = .ok ()) :
    room.current < target ∧ Valid command := by
  unfold Room.validate at valid
  split_ifs at valid with malformed settled
  simp only [not_or, not_and] at malformed settled
  refine ⟨?_, not_not.mp malformed.2.1, malformed.2.2.1⟩
  by_contra past
  exact (settled (Nat.not_lt.mp past)).1 window

theorem Recorded.submission (window : config.rollbackWindowTicks = 0)
    (recorded : Recorded env initial config session) (submission : Submission session.room room) :
    Recorded env initial config { session with room } := by
  have invariant := recorded.invariant.submission submission
  rcases submission with ⟨counters, rfl⟩ | ⟨target, command, valid, rfl⟩
  · exact { recorded with invariant }
  · obtain ⟨future, good⟩ := validate_punctual
      (by rw [recorded.invariant.configured]; exact window) valid
    exact { recorded with
      invariant
      punctual := forall_mem_append.mpr ⟨recorded.punctual, forall_mem_singleton.mpr future⟩
      queued := forall_mem_append.mpr ⟨recorded.queued, forall_mem_singleton.mpr good⟩ }

section

variable (contract : Contract env config.maxSnapshotBytes) (accepting : Accepts env)
variable (recorded : Recorded env initial config session)
include recorded

theorem Recorded.upcoming :
    session.room.upcoming.pending.length ≤ config.maxPendingCommands ∧
      ∀ item ∈ session.room.upcoming.pending, Valid item.command := by
  rw [Room.upcoming, recorded.invariant.configured]
  exact ⟨Scheduler.length_addAll _ _ _ recorded.bounded,
    Scheduler.pending_addAll _ _ _ recorded.pending recorded.queued⟩

theorem Recorded.taken : Batch config (session.room.taken.map (·.command)) := by
  obtain ⟨short, valid⟩ := recorded.upcoming
  obtain ⟨count, limited, chosen⟩ := Room.due_eq_take (session.room.current + 1)
    session.room.config.maxCommandsPerTick session.room.upcoming.pending
  rw [recorded.invariant.configured] at limited
  rw [Room.taken, chosen]
  refine ⟨?_, ?_, ?_⟩
  · rw [length_map]
    exact le_trans (length_take_le _ _) limited
  · rw [length_map]
    exact le_trans (length_take_le' _ _) short
  · intro command member
    obtain ⟨item, chosen, rfl⟩ := mem_map.mp member
    exact valid item (mem_of_mem_take chosen)

include contract accepting

theorem Recorded.advanced :
    ∃ after, session.room.advance env = (.ok (), after) ∧
      Room.Advanced env initial session.log session.room after :=
  Room.advance_punctual (recorded.invariant.configured ▸ contract) accepting
    recorded.invariant.idle recorded.invariant.running recorded.punctual

theorem Recorded.advance : Recorded env initial config (session.afterAdvance env) := by
  have invariant := recorded.invariant
  obtain ⟨after, called, advanced⟩ := recorded.advanced contract accepting
  obtain ⟨observer, observed⟩ := recorded.observed
  have pending : after.pending = session.room.upcoming.pending.drop session.room.taken.length :=
    congrArg Scheduler.pending advanced.scheduler
  have config_ := advanced.steady.config.trans invariant.configured
  have interval := advanced.steady.delta.trans invariant.interval
  have older : ∀ entry, entry ≠ session.room.current + 1 → update session.log
      (session.room.current + 1) (session.room.taken.map (·.command)) entry = session.log entry :=
    fun entry different => update_of_ne different _ _
  simp only [afterAdvance, called, advanced.logged]
  refine ⟨⟨config_, interval, advanced.steady.running.trans invariant.running, advanced.idle, ?_⟩,
    ⟨observer, advanced.observer.trans observed⟩, ?_, ?_, ?_, ?_, ?_, ?_⟩
  · simp [advanced.queue]
  · simp [advanced.queue]
  · simp [advanced.queue]
  · intro item member
    rw [pending] at member
    exact recorded.upcoming.2 item (mem_of_mem_drop member)
  · rw [pending, length_drop]
    exact le_trans (Nat.sub_le _ _) recorded.upcoming.1
  · intro time positive below
    dsimp only at below ⊢
    by_cases here : time = session.room.current + 1
    · subst time
      rw [update_self]
      exact recorded.taken
    · have current := advanced.current
      rw [older time here]
      exact recorded.batches time positive (by omega)
  · have live := advanced.idle.live
    dsimp only
    rw [advanced.observations, Room.noted_some observed, recorded.observations, advanced.current,
      transcript, live, interval, advanced.current, update_self, invariant.configured,
      invariant.interval]
    congr 1
    exact transcript_congr env config initial _ (fun entry _ below => (older entry (by omega)).symm)

end

theorem recorded_start {id : String} {observer : List (Observation C Sn) → Except Error Unit}
    (created : Room.withObserver id config initial (some observer) = .ok room)
    (publisher : Option π) : Recorded env initial config (start { room with publisher }) := by
  have invariant : Invariant env initial config (start { room with publisher }) :=
    invariant_start created publisher
  rw [withObserver_ok created] at invariant ⊢
  refine ⟨invariant, ⟨observer, rfl⟩, nofun, nofun, nofun, Nat.zero_le _, ?_, rfl⟩
  · intro time positive below
    exact absurd (Nat.lt_of_lt_of_le positive below) (Nat.lt_irrefl 0)

theorem recorded_reachable {first : Session σ C Sn π}
    (contract : Contract env config.maxSnapshotBytes) (accepting : Accepts env)
    (window : config.rollbackWindowTicks = 0) (recorded : Recorded env initial config first)
    (reachable : Reachable env (fun _ => True) first session) :
    Recorded env initial config session := by
  induction reachable with
  | refl => exact recorded
  | tail _ step ih =>
    cases step with
    | trySubmitAt target command =>
      exact ih.submission window (submission_trySubmitAt _ target command)
    | submitAt _ _ _ completed =>
      exact ih.submission window (submission_submitAt completed)
    | advance => exact ih.advance contract accepting

end Recorded

end Session

end Elura.Realtime
