import Elura.Core.Replay
import Elura.Realtime.Transcript

/-!
Playing a recorded run back into a fresh room: the recorded commands are submitted for the tick in
which they were executed, and the room is advanced at every tick record.
-/

namespace Elura.Realtime

open List Function

structure ReplayStats where
  commandsSubmitted : Nat := 0
  ticksAdvanced : Nat := 0
  checkpointsVerified : Nat := 0
  deriving DecidableEq, Repr

section Player

variable {σ C Sn π : Type} (env : Environment σ C Sn π)

/-- The loop of `play_replay`; `none` if a submission waits for a channel that
nobody will drain. -/
def playRecords : List (ReplayRecord C) → Nat → ReplayStats → Room σ C Sn π →
    Option (Except Error ReplayStats × Room σ C Sn π)
  | [], _, stats, room => some (.ok stats, room)
  | record :: rest, last, stats, room =>
    match record.check env.sha256 last with
    | .error error => some (.error error, room)
    | .ok _ =>
      match record with
      | .command tick player sequence command =>
        match room.submitAt tick { player, sequence, value := command } with
        | none => none
        | some (.error error, room) => some (.error error, room)
        | some (.ok _, room) =>
          playRecords rest tick
            { stats with commandsSubmitted := stats.commandsSubmitted + 1 } room
      | .tick tick =>
        if tick ≠ room.current + 1 then
          some (.error (.invalidFrame "replay Tick is out of order"), room)
        else
          match room.advance env with
          | (.error error, room) => some (.error error, room)
          | (.ok _, room) =>
            if room.current ≠ tick then
              some (.error (.invalidFrame "replay driver Tick mismatch"), room)
            else
              playRecords rest tick
                { stats with ticksAdvanced := stats.ticksAdvanced + 1 } room
      | .checkpoint tick _ stateHash =>
        if room.current ≠ tick then
          some (.error (.invalidFrame "replay checkpoint Tick mismatch"), room)
        else
          match room.canonicalState env with
          | .error error => some (.error error, room)
          | .ok canonical =>
            if ({ bytes := stateHash } : StateHash) ≠ .digest env.sha256 canonical then
              some (.error (.invalidFrame "replay checkpoint state mismatch"), room)
            else
              playRecords rest tick
                { stats with checkpointsVerified := stats.checkpointsVerified + 1 } room

def playReplay (reader : ReplayReader C) (room : Room σ C Sn π) :
    Option (Except Error ReplayStats × Room σ C Sn π) :=
  if room.id ≠ reader.header.roomId ∨ room.current ≠ 0 ∨
      room.config.tickRate ≠ reader.header.tickRate ∨
      room.config.inputDelayTicks ≠ reader.header.inputDelayTicks ∨
      room.config.rollbackWindowTicks ≠ reader.header.rollbackWindowTicks then
    some (.error (.invalidConfig "replay driver does not match header"), room)
  else playRecords env reader.records reader.last {} room

/-- The records that an observer writes for a call. The bytes of a checkpoint do
not depend on `state`. -/
def recordCall (state : σ) : Observation C Sn → List (ReplayRecord C)
  | .command tick command => [.command tick command.player command.sequence command.value]
  | .tick tick => [.tick tick.number]
  | .snapshot tick snapshot hash =>
    match env.simulation.encodeSnapshot snapshot state with
    | .ok bytes => [.checkpoint tick.number bytes hash.bytes]
    | .error _ => []
  | .rollback _ _ => []

def recording (state : σ) (calls : List (Observation C Sn)) : List (ReplayRecord C) :=
  calls.flatMap (recordCall env state)

def headerOf (id : String) (config : RoomConfig) : ReplayHeader :=
  { roomId := id, tickRate := config.tickRate, inputDelayTicks := config.inputDelayTicks,
    rollbackWindowTicks := config.rollbackWindowTicks }

end Player

section Orderly

variable {C : Type}

def recordedCommands (records : List (ReplayRecord C)) : List (Submitted C) :=
  records.filterMap fun
    | .command tick player sequence command =>
      some { target := tick, command := { player, sequence, value := command } }
    | _ => none

/-- Each player's sequences increase from record to record, and no tick has more
commands than the channel holds. -/
structure Orderly (capacity : Nat) (records : List (ReplayRecord C)) : Prop where
  ascending : (recordedCommands records).Pairwise (fun earlier later =>
    earlier.command.player = later.command.player →
      earlier.command.sequence < later.command.sequence)
  capacity : ∀ tick, ((recordedCommands records).filter (fun input => input.target = tick)).length ≤
    capacity

end Orderly

section Order

variable {C : Type}
variable (sequences : PlayerKey → Option Nat)

def lastSequences (sequences : PlayerKey → Option Nat) (commands : List (Command C)) :
    PlayerKey → Option Nat :=
  commands.foldl (fun sequences command =>
    Function.update sequences command.player (some command.sequence)) sequences

def Ascending (sequences : PlayerKey → Option Nat) : List (Command C) → Prop
  | [] => True
  | command :: rest =>
    (sequences command.player).getD 0 < command.sequence ∧
      Ascending (Function.update sequences command.player (some command.sequence)) rest

theorem ascending_append (first second : List (Command C)) :
    Ascending sequences (first ++ second) ↔
      Ascending sequences first ∧ Ascending (lastSequences sequences first) second := by
  induction first generalizing sequences with
  | nil => simp [Ascending, lastSequences]
  | cons _ _ ih =>
    simp only [cons_append, Ascending, ih, lastSequences, foldl_cons, and_assoc]

theorem ascending_iff_pairwise (commands : List (Command C)) :
    Ascending sequences commands ↔
      (∀ command ∈ commands, (sequences command.player).getD 0 < command.sequence) ∧
        commands.Pairwise (fun earlier later =>
          earlier.player = later.player → earlier.sequence < later.sequence) := by
  induction commands generalizing sequences with
  | nil => simp [Ascending]
  | cons command _ ih =>
    simp only [Ascending, ih, mem_cons, forall_eq_or_imp, pairwise_cons]
    simp only [update_apply, apply_ite (Option.getD · 0), Option.getD_some, @eq_comm _ _ command.player]
    constructor
    · rintro ⟨newer, later, pairwise⟩
      refine ⟨⟨newer, fun other member => ?_⟩, fun other member same => ?_, pairwise⟩
      · have above := later other member
        split_ifs at above with same
        · rw [← same]
          omega
        · exact above
      · have above := later other member
        rw [if_pos same] at above
        exact above
    · rintro ⟨⟨newer, above⟩, later, pairwise⟩
      refine ⟨newer, fun other member => ?_, pairwise⟩
      split_ifs with same
      · exact later other member same
      · exact above other member

theorem orderedInsert_last {item : Scheduled C} (pending : List (Scheduled C))
    (last : ∀ other ∈ pending, ¬item.Before other) :
    pending.orderedInsert Scheduled.Before item = pending ++ [item] := by
  induction pending with
  | nil => rfl
  | cons other _ ih =>
    rw [orderedInsert_cons, if_neg (last other (by simp)),
      ih (fun following member => last following (by simp [member]))]
    rfl

namespace Scheduler

def batch (target : Nat) (commands : List (Command C)) : List (Submitted C) :=
  commands.map (fun command => { target, command })

theorem addAll_ascending (limit target : Nat) (commands : List (Command C))
    (scheduler : Scheduler C)
    (earlier : ∀ item ∈ scheduler.pending, item.target ≤ target ∧ item.order ≤ scheduler.order)
    (room : scheduler.pending.length + commands.length ≤ limit)
    (ascending : Ascending scheduler.sequences commands) :
    ∃ added order, scheduler.addAll limit (batch target commands) =
        { pending := scheduler.pending ++ added, order
          sequences := lastSequences scheduler.sequences commands } ∧
      added.map (·.command) = commands ∧ ∀ item ∈ added, item.target = target := by
  induction commands generalizing scheduler with
  | nil =>
    refine ⟨[], scheduler.order, ?_, rfl, by simp⟩
    simp [batch, addAll, lastSequences]
  | cons command rest ih =>
    obtain ⟨newer, later⟩ := ascending
    simp only [length_cons] at room
    let item : Scheduled C := { target, order := scheduler.order + 1, command }
    have last : ∀ other ∈ scheduler.pending, ¬item.Before other := by
      intro other member before
      have bounds := earlier other member
      rcases before with sooner | ⟨_, order⟩
      · exact absurd sooner (Nat.not_lt.mpr bounds.1)
      · exact absurd order (Nat.not_le.mpr (Nat.lt_succ_of_le bounds.2))
    have added : scheduler.add limit { target, command } =
        { pending := scheduler.pending ++ [item], order := scheduler.order + 1
          sequences := update scheduler.sequences command.player
            (some command.sequence) } := by
      simp only [add, Nat.not_le.mpr newer, if_false, show ¬limit ≤ scheduler.pending.length by
        omega]
      rw [orderedInsert_last scheduler.pending last]
    obtain ⟨more, order, all, same, targets⟩ := ih (scheduler.add limit { target, command })
      (by
        rw [added]
        intro other member
        rcases mem_append.mp member with old | new
        · have bounds := earlier other old
          exact ⟨bounds.1, Nat.le_succ_of_le bounds.2⟩
        · rw [mem_singleton] at new
          subst other
          exact ⟨le_rfl, le_rfl⟩)
      (by rw [added]; simp only [length_append, length_singleton]; omega)
      (by rw [added]; exact later)
    refine ⟨item :: more, order, ?_, ?_, ?_⟩
    · change (scheduler.add limit { target, command }).addAll limit (batch target rest) = _
      rw [all, added]
      simp [lastSequences]
    · simp only [map_cons, same]
      rfl
    · intro other member
      rcases mem_cons.mp member with rfl | old
      · rfl
      · exact targets other old

theorem length_add_le (limit : Nat) (scheduler : Scheduler C) (input : Submitted C) :
    (scheduler.add limit input).pending.length ≤ scheduler.pending.length + 1 := by
  unfold add
  split_ifs
  · exact Nat.le_succ _
  · exact Nat.le_succ _
  · rw [orderedInsert_length]

theorem length_addAll_le (limit : Nat) (inputs : List (Submitted C)) (scheduler : Scheduler C) :
    (scheduler.addAll limit inputs).pending.length ≤ scheduler.pending.length + inputs.length := by
  induction inputs generalizing scheduler with
  | nil => exact le_rfl
  | cons input _ ih =>
    have first := length_add_le limit scheduler input
    have others := ih (scheduler.add limit input)
    simp only [addAll, foldl_cons, length_cons] at others ⊢
    omega

theorem length_addAll_lt (limit target : Nat) (commands : List (Command C))
    (scheduler : Scheduler C) (repeated : ¬Ascending scheduler.sequences commands) :
    (scheduler.addAll limit (batch target commands)).pending.length <
      scheduler.pending.length + commands.length := by
  induction commands generalizing scheduler with
  | nil => exact absurd trivial repeated
  | cons command rest ih =>
    have others := length_addAll_le limit (batch target rest) scheduler
    simp only [batch, length_map] at others
    simp only [batch, addAll, map_cons, foldl_cons, length_cons] at ih others ⊢
    by_cases duplicate : command.sequence ≤ (scheduler.sequences command.player).getD 0
    · simp only [add, duplicate, if_true]
      omega
    · by_cases full : limit ≤ scheduler.pending.length
      · simp only [add, duplicate, full, if_true, if_false]
        omega
      · have first := length_add_le limit scheduler { target, command }
        have later : ¬Ascending (scheduler.add limit { target, command }).sequences rest := by
          simp only [add, duplicate, full]
          exact fun ascending => repeated ⟨Nat.not_le.mp duplicate, ascending⟩
        have less := ih (scheduler.add limit { target, command }) later
        omega

end Scheduler

theorem due_all {number limit : Nat} (pending : List (Scheduled C))
    (arrived : ∀ item ∈ pending, item.target ≤ number) (short : pending.length ≤ limit) :
    Room.due number limit pending = pending := by
  induction pending generalizing limit with
  | nil =>
    cases limit with
    | zero | succ => rfl
  | cons next _ ih =>
    cases limit with
    | zero => simp at short
    | succ =>
      simp only [length_cons, Nat.add_le_add_iff_right] at short
      simp only [Room.due, Nat.not_lt.mpr (arrived next (by simp)), if_false]
      rw [ih (fun item member => arrived item (by simp [member])) short]

end Order

section Segments

open Session (Valid Batch Recorded)

variable {σ C Sn π : Type} {env : Environment σ C Sn π} {initial : σ} {config : RoomConfig}
variable {log : Nat → List (Command C)}
variable {room : Room σ C Sn π} {last number : Nat}

def commandRecord (number : Nat) (command : Command C) : ReplayRecord C :=
  .command number command.player command.sequence command.value

variable (env) in
theorem playRecords_command {command : Command C} (next : number = room.current + 1)
    (future : 0 < room.config.maxFutureInputTicks) (valid : Valid command) (ordered : last ≤ number)
    (stats : ReplayStats) (rest : List (ReplayRecord C)) :
    playRecords env (commandRecord number command :: rest) last stats room =
      if room.queue.length < room.config.commandCapacity then
        playRecords env rest number
          { stats with commandsSubmitted := stats.commandsSubmitted + 1 }
          (room.enqueue number command)
      else none := by
  have inOrder : ¬(number = 0 ∨ number < last) := by omega
  have inRange : ¬(number = 0 ∨ command.player.validate ≠ .ok () ∨ command.sequence = 0 ∨
      room.current + room.config.maxFutureInputTicks < number) := by
    simp only [valid.player, valid.sequence, ne_eq, not_true, false_or]
    omega
  have open_ : ¬(number ≤ room.current ∧
      (room.config.rollbackWindowTicks = 0 ∨ number ≤ room.finalized)) := by omega
  simp only [playRecords, commandRecord, ReplayRecord.check, ReplayRecord.tickNumber, inOrder,
    if_false, Room.submitAt, Room.validate, if_neg inRange, if_neg open_]
  by_cases space : room.queue.length < room.config.commandCapacity
  all_goals simp only [space, if_true, if_false]

variable (env) in
/-- With more commands than the channel holds the player waits forever. -/
theorem playRecords_commands (number last : Nat) (commands : List (Command C))
    (stats : ReplayStats) (room : Room σ C Sn π) (next : number = room.current + 1)
    (future : 0 < room.config.maxFutureInputTicks) (valid : ∀ command ∈ commands, Valid command)
    (ordered : last ≤ number) (fits : room.queue.length ≤ room.config.commandCapacity) :
    ∃ counters reached, reached ≤ number ∧ ∀ rest,
      playRecords env (commands.map (commandRecord number) ++ rest) last stats room =
        if room.queue.length + commands.length ≤ room.config.commandCapacity then
          playRecords env rest reached
            { stats with commandsSubmitted := stats.commandsSubmitted + commands.length }
            { room with queue := room.queue ++ Scheduler.batch number commands, counters }
        else none := by
  induction commands generalizing last stats room with
  | nil =>
    refine ⟨room.counters, last, ordered, fun rest => ?_⟩
    simp [Scheduler.batch, fits]
  | cons command commands ih =>
    have first := playRecords_command env next future (valid command mem_cons_self) ordered stats
    by_cases space : room.queue.length < room.config.commandCapacity
    · obtain ⟨counters, reached, bounded, played⟩ := ih number
        { stats with commandsSubmitted := stats.commandsSubmitted + 1 }
        (room.enqueue number command) next future
        (fun other member => valid other (mem_cons_of_mem _ member)) le_rfl
        (by rw [Room.enqueue, length_append]; exact space)
      refine ⟨counters, reached, bounded, fun rest => ?_⟩
      rw [map_cons, cons_append, first, if_pos space, played]
      simp only [Room.enqueue, append_assoc, length_append, length_cons, length_nil,
        Nat.zero_add, Nat.add_assoc, Nat.add_comm 1]
      rfl
    · refine ⟨room.counters, number, le_rfl, fun rest => ?_⟩
      rw [map_cons, cons_append, first, if_neg space, if_neg]
      rw [length_cons]
      omega

theorem recording_append (state : σ) (first second : List (Observation C Sn)) :
    recording env state (first ++ second) =
      recording env state first ++ recording env state second := by
  simp [recording]

theorem recording_tickCalls (state reached : σ) (interval delta number : Nat)
    (commands : List (Command C)) :
    recording env state (tickCalls env interval delta number commands reached) =
      commands.map (commandRecord number) ++ .tick number ::
        recording env state
          (if number % interval = 0 then snapshotCalls env (tickAt delta number) reached else []) := by
  simp only [recording, tickCalls, flatMap_append, flatMap_map, recordCall, ←
    map_eq_flatMap]
  rfl

theorem playRecords_checkpoint (contract : Contract env room.config.maxSnapshotBytes) (state : σ)
    (current : room.current = number) (positive : 0 < number) (ordered : last ≤ number)
    (stats : ReplayStats) (rest : List (ReplayRecord C)) :
    playRecords env (recording env state (snapshotCalls env (tickAt room.delta number)
        room.simulation) ++ rest) last stats room =
      playRecords env rest number
        { stats with checkpointsVerified := stats.checkpointsVerified + 1 } room := by
  obtain ⟨snapshot, taken⟩ := contract.snapshot (tickAt room.delta number) room.simulation
  obtain ⟨bytes, encoded, _⟩ := contract.encode snapshot room.simulation
  have elsewhere : env.simulation.encodeSnapshot snapshot state = .ok bytes :=
    (contract.stable snapshot state room.simulation).trans encoded
  have canonical : room.canonicalState env = .ok bytes := by
    rw [Room.canonicalState, Room.tick, current, taken]
    exact Room.encode_ok room contract encoded
  have inOrder : ¬(number = 0 ∨ number < last) := by omega
  have here : ¬room.current ≠ number := not_not.mpr current
  have written : recording env state (snapshotCalls env (tickAt room.delta number)
      room.simulation) = [.checkpoint number bytes (env.sha256 bytes)] := by
    simp only [snapshotCalls, taken, encoded, recording, flatMap_cons, recordCall, elsewhere]
    rfl
  rw [written, singleton_append]
  simp only [playRecords, ReplayRecord.check, ReplayRecord.tickNumber, inOrder, if_false, if_true,
    here, canonical, StateHash.digest, ne_eq, not_true]

theorem Session.Recorded.fill (recorded : Recorded env initial config { room, log })
    (empty : room.queue = []) (commands : List (Command C)) (counters : Counters)
    (valid : ∀ command ∈ commands, Valid command) :
    Recorded env initial config
      { room := { room with
          queue := room.queue ++ Scheduler.batch (room.current + 1) commands, counters }, log } := by
  have members : ∀ input ∈ room.queue ++ Scheduler.batch (room.current + 1) commands,
      input.target = room.current + 1 ∧ Valid input.command := by
    intro input member
    rw [empty] at member
    obtain ⟨command, chosen, rfl⟩ := mem_map.mp member
    exact ⟨rfl, valid command chosen⟩
  have invariant := recorded.invariant
  refine { recorded with
    invariant := ⟨invariant.configured, invariant.interval, invariant.running,
      invariant.idle.submission _ _, ?_⟩
    punctual := ?_
    queued := fun input member => (members input member).2 }
  · intro input member
    have target := (members input member).1
    have floor := invariant.idle.floor
    dsimp only at floor ⊢
    omega
  · intro input member
    have target := (members input member).1
    dsimp only
    omega

structure Replica (env : Environment σ C Sn π) (initial : σ) (config : RoomConfig)
    (log : Nat → List (Command C)) (room : Room σ C Sn π) : Prop where
  recorded : Recorded env initial config { room, log }
  queue : room.queue = []
  pending : room.pending = []

def batched (room : Room σ C Sn π) (commands : List (Command C)) : Scheduler C :=
  room.scheduler.addAll room.config.maxPendingCommands
    (Scheduler.batch (room.current + 1) commands)

def replayed (room : Room σ C Sn π) (commands : List (Command C)) : List (Scheduled C) :=
  Room.due (room.current + 1) room.config.maxCommandsPerTick (batched room commands).pending

section

variable (contract : Contract env config.maxSnapshotBytes) (accepting : Accepts env)
include contract accepting

theorem Replica.play_batch
    (future : 0 < config.maxFutureInputTicks) (replica : Replica env initial config log room)
    {commands : List (Command C)} (valid : ∀ command ∈ commands, Valid command)
    (space : commands.length ≤ config.commandCapacity) (ordered : last ≤ room.current + 1)
    (stats : ReplayStats) :
    ∃ after total,
      Recorded env initial config ⟨after, Function.update log (room.current + 1)
        ((replayed room commands).map (·.command))⟩ ∧
      after.current = room.current + 1 ∧ after.queue = [] ∧
      after.scheduler = { batched room commands with
        pending := (batched room commands).pending.drop (replayed room commands).length } ∧
      after.observations = room.observations ++ tickCalls env config.snapshotInterval
        (Room.tickDelta config.tickRate) (room.current + 1)
        ((replayed room commands).map (·.command)) after.simulation ∧
      total.commandsSubmitted = stats.commandsSubmitted + commands.length ∧
      ∀ rest, playRecords env (commands.map (commandRecord (room.current + 1)) ++
          .tick (room.current + 1) :: rest) last stats room =
        playRecords env rest (room.current + 1) total after := by
  have invariant := replica.recorded.invariant
  have configured : room.config = config := invariant.configured
  obtain ⟨observer, observed⟩ := replica.recorded.observed
  obtain ⟨counters, reached, bounded, played⟩ := playRecords_commands env (room.current + 1) last
    commands stats room rfl (configured ▸ future) valid ordered (by simp [replica.queue])
  have enough : room.queue.length + commands.length ≤ room.config.commandCapacity := by
    rwa [replica.queue, configured, length_nil, Nat.zero_add]
  simp only [if_pos enough] at played
  have recorded := replica.recorded.fill replica.queue commands counters valid
  obtain ⟨filled, fills⟩ : ∃ filled, filled = { room with
    queue := room.queue ++ Scheduler.batch (room.current + 1) commands, counters } := ⟨_, rfl⟩
  rw [← fills] at played recorded
  obtain ⟨upcoming, same, delta, current, noted⟩ : filled.upcoming = batched room commands ∧
      filled.config = room.config ∧ filled.delta = room.delta ∧
      filled.current = room.current ∧ ∀ calls, filled.noted calls = room.noted calls := by
    subst fills
    refine ⟨?_, rfl, rfl, rfl, fun _ => rfl⟩
    simp only [replica.queue]
    rfl
  have taken : filled.taken = replayed room commands := by
    rw [Room.taken, upcoming, current, same]
    rfl
  obtain ⟨after, called, advanced⟩ := recorded.advanced contract accepting
  have next := recorded.advance contract accepting
  have reachedTick : after.current = room.current + 1 := advanced.current.trans (by rw [current])
  simp only [Session.afterAdvance, called, advanced.logged, taken, current] at next
  refine ⟨after, { stats with
    commandsSubmitted := stats.commandsSubmitted + commands.length
    ticksAdvanced := stats.ticksAdvanced + 1 }, next, reachedTick, advanced.queue, ?_, ?_, rfl,
    fun rest => (played _).trans ?_⟩
  · rw [advanced.scheduler, upcoming, taken]
  · rw [advanced.observations, noted, Room.noted_some observed, taken, current, same, delta,
      configured, show room.delta = _ from invariant.interval]
  · have inOrder : ¬(room.current + 1 = 0 ∨ room.current + 1 < reached) := by omega
    simp only [playRecords, ReplayRecord.check, ReplayRecord.tickNumber, inOrder, current, called,
      reachedTick, ne_eq, not_true_eq_false, if_false]

theorem Replica.play_ascending
    (future : 0 < config.maxFutureInputTicks) (replica : Replica env initial config log room)
    {commands : List (Command C)} (batch : Batch config commands)
    (space : commands.length ≤ config.commandCapacity)
    (ascending : Ascending room.sequences commands) (ordered : last ≤ room.current + 1)
    (stats : ReplayStats) (state : σ) :
    ∃ after total,
      Replica env initial config (Function.update log (room.current + 1) commands) after ∧
      after.current = room.current + 1 ∧
      after.sequences = lastSequences room.sequences commands ∧
      total.commandsSubmitted = stats.commandsSubmitted + commands.length ∧
      ∀ rest, playRecords env (recording env state (tickCalls env config.snapshotInterval
          (Room.tickDelta config.tickRate) (room.current + 1) commands after.simulation) ++ rest)
          last stats room =
        playRecords env rest (room.current + 1) total after := by
  have configured : room.config = config := replica.recorded.invariant.configured
  obtain ⟨after, total, recorded, current, queue, scheduler, _, submitted, played⟩ :=
    replica.play_batch contract accepting future batch.valid space ordered stats
  obtain ⟨added, order, scheduled, same, targets⟩ := Scheduler.addAll_ascending
    room.config.maxPendingCommands (room.current + 1) commands room.scheduler
    (by simp [Room.scheduler, replica.pending])
    (by simp only [Room.scheduler, replica.pending, configured]; simpa using batch.pending) ascending
  have pending : (batched room commands).pending = added := by
    rw [batched, scheduled]
    simp [Room.scheduler, replica.pending]
  have executed : replayed room commands = added := by
    rw [replayed, pending]
    refine due_all added (fun item member => le_of_eq (targets item member)) ?_
    rw [configured, ← length_map (·.command), same]
    exact batch.executed
  rw [executed, same] at recorded
  have emptied : after.pending = [] := by
    have left := congrArg Scheduler.pending scheduler
    simp only [executed, pending, drop_length] at left
    exact left
  have sequences : after.sequences = lastSequences room.sequences commands := by
    have last := congrArg Scheduler.sequences scheduler
    simp only [batched, scheduled] at last
    exact last
  have limit : after.config.maxSnapshotBytes = config.maxSnapshotBytes := by
    rw [show after.config = config from recorded.invariant.configured]
  have interval : after.delta = Room.tickDelta config.tickRate := recorded.invariant.interval
  by_cases captured : (room.current + 1) % config.snapshotInterval = 0
  · refine ⟨after, { total with checkpointsVerified := total.checkpointsVerified + 1 },
      ⟨recorded, queue, emptied⟩, current, sequences, submitted, fun rest => ?_⟩
    rw [recording_tickCalls, if_pos captured, append_assoc, cons_append, played, ← interval]
    exact playRecords_checkpoint (limit ▸ contract) state current (Nat.succ_pos _) le_rfl total
      rest
  · refine ⟨after, total, ⟨recorded, queue, emptied⟩, current, sequences, submitted, fun rest => ?_⟩
    rw [recording_tickCalls, if_neg captured, append_assoc, cons_append, played]
    rfl

theorem playRecords_extends {records : List (ReplayRecord C)} {stats total : ReplayStats}
    {final : Room σ C Sn π}
    (window : config.rollbackWindowTicks = 0) (recorded : Recorded env initial config { room, log })
    (played : playRecords env records last stats room = some (.ok total, final)) :
    room.observations <+: final.observations := by
  induction records generalizing last stats room log with
  | nil =>
    simp only [playRecords, Option.some.injEq, Prod.mk.injEq] at played
    rw [played.2]
  | cons record rest ih =>
    unfold playRecords at played
    split at played
    · cases played
    · cases record with
      | command number player sequence command =>
        simp only at played
        split at played
        · cases played
        · cases played
        · rename_i next submitted
          have submission := Session.submission_submitAt submitted
          have kept : next.observations = room.observations := by
            rcases submission with ⟨counters, same⟩ | ⟨_, _, _, same⟩
            · simp only at same
              rw [same]
            · simp only at same
              rw [same]
              rfl
          rw [← kept]
          exact ih (recorded.submission window submission) played
      | tick =>
        simp only at played
        split at played
        · cases played
        · obtain ⟨after, called, advanced⟩ := recorded.advanced contract accepting
          have next := recorded.advance contract accepting
          simp only [Session.afterAdvance, called] at next
          rw [called] at played
          simp only at played
          split at played
          · cases played
          · obtain ⟨observer, observed⟩ := recorded.observed
            refine List.IsPrefix.trans ?_ (ih next played)
            rw [advanced.observations, Room.noted_some observed]
            exact prefix_append _ _
      | checkpoint =>
        simp only at played
        split at played
        · cases played
        · split at played
          · cases played
          · split at played
            · cases played
            · exact ih recorded played

end

end Segments

section Lockstep

open Session (Valid Batch Recorded)

variable {σ C Sn π : Type} {env : Environment σ C Sn π} {initial : σ} {config : RoomConfig}
variable {log : Nat → List (Command C)}
variable {time through : Nat} {stats : ReplayStats} {room : Room σ C Sn π}

def executed (log : Nat → List (Command C)) : Nat → List (Command C)
  | 0 => []
  | time + 1 => executed log time ++ log (time + 1)

structure Playable (config : RoomConfig) (log : Nat → List (Command C)) (time : Nat) : Prop where
  space : ∀ entry, 0 < entry → entry ≤ time → (log entry).length ≤ config.commandCapacity
  ascending : Ascending (fun _ => none) (executed log time)

structure Lockstep (env : Environment σ C Sn π) (initial : σ) (config : RoomConfig)
    (log : Nat → List (Command C)) (time : Nat) (stats : ReplayStats) (room : Room σ C Sn π) :
    Prop where
  replica : ∃ own, Replica env initial config own room ∧
    ∀ entry, 0 < entry → entry ≤ time → own entry = log entry
  current : room.current = time
  sequences : room.sequences = lastSequences (fun _ => none) (executed log time)
  submitted : stats.commandsSubmitted = (executed log time).length

theorem Lockstep.observations (lockstep : Lockstep env initial config log time stats room) :
    room.observations = transcript env config initial log time := by
  obtain ⟨own, replica, same⟩ := lockstep.replica
  have observations := replica.recorded.observations
  dsimp only at observations
  rw [observations, lockstep.current]
  exact transcript_congr env config initial time same

theorem transcript_split (earlier : time < through) :
    ∃ tail, transcript env config initial log through =
      transcript env config initial log time ++
        (tickCalls env config.snapshotInterval (Room.tickDelta config.tickRate) (time + 1)
          (log (time + 1))
          (stateAt env.simulation (Room.tickDelta config.tickRate) initial log (time + 1)) ++
        tail) := by
  induction through with
  | zero => omega
  | succ through ih =>
    by_cases here : time = through
    · subst time
      exact ⟨[], by rw [append_nil]; rfl⟩
    · obtain ⟨tail, split⟩ := ih (by omega)
      refine ⟨tail ++ tickCalls env config.snapshotInterval (Room.tickDelta config.tickRate)
        (through + 1) (log (through + 1))
        (stateAt env.simulation (Room.tickDelta config.tickRate) initial log (through + 1)), ?_⟩
      rw [transcript, split]
      simp

theorem commands_of_isPrefix {number : Nat} {tick : Tick} {fewer more : List (Command C)}
    {left right : List (Observation C Sn)}
    (starts : fewer.map (.command number) ++ .tick tick :: left <+:
      more.map (.command number) ++ right) : more.length ≤ fewer.length := by
  induction fewer generalizing more with
  | nil =>
    cases more with
    | nil => exact le_rfl
    | cons =>
      obtain ⟨rest, same⟩ := starts
      simp at same
  | cons _ _ ih =>
    cases more with
    | nil => exact Nat.zero_le _
    | cons =>
      simp only [map_cons, cons_append, cons_prefix_cons] at starts
      exact Nat.succ_le_succ (ih starts.2)

section

variable (contract : Contract env config.maxSnapshotBytes) (accepting : Accepts env)
  (future : 0 < config.maxFutureInputTicks)
include contract accepting future

theorem Lockstep.next {last : Nat}
    (lockstep : Lockstep env initial config log time stats room)
    (batch : Batch config (log (time + 1)))
    (space : (log (time + 1)).length ≤ config.commandCapacity)
    (ascending : Ascending room.sequences (log (time + 1))) (ordered : last ≤ time + 1)
    (state : σ) :
    ∃ after total, Lockstep env initial config log (time + 1) total after ∧
      ∀ rest, playRecords env (recording env state (tickCalls env config.snapshotInterval
          (Room.tickDelta config.tickRate) (time + 1) (log (time + 1))
          (stateAt env.simulation (Room.tickDelta config.tickRate) initial log (time + 1))) ++ rest)
          last stats room =
        playRecords env rest (time + 1) total after := by
  obtain ⟨own, replica, same⟩ := lockstep.replica
  have current := lockstep.current
  subst time
  obtain ⟨after, total, next, reached, sequences, submitted, played⟩ :=
    replica.play_ascending contract accepting future batch space ascending ordered stats state
  have agrees : ∀ entry, 0 < entry → entry ≤ room.current + 1 →
      update own (room.current + 1) (log (room.current + 1)) entry = log entry := by
    intro entry positive below
    by_cases here : entry = room.current + 1
    · subst entry
      exact update_self _ _ _
    · rw [update_of_ne here]
      exact same entry positive (by omega)
  have live : after.simulation =
      stateAt env.simulation (Room.tickDelta config.tickRate) initial log (room.current + 1) := by
    have state := next.recorded.invariant.idle.live
    dsimp only at state
    rw [state, reached, show after.delta = _ from next.recorded.invariant.interval]
    exact stateAt_congr _ agrees
  rw [live] at played
  refine ⟨after, total, ⟨⟨_, next, agrees⟩, reached, ?_, ?_⟩, played⟩
  · rw [sequences, lockstep.sequences, executed]
    exact foldl_append.symm
  · rw [submitted, lockstep.submitted, executed, length_append]

/-- A playable recording is replayed in lockstep. -/
theorem lockstep_of_playable {origin : Room σ C Sn π}
    (start : Lockstep env initial config log 0 {} origin) (state : σ) (time : Nat)
    (batches : ∀ entry, 0 < entry → entry ≤ time → Batch config (log entry))
    (playable : Playable config log time) :
    ∃ room stats, Lockstep env initial config log time stats room ∧
      ∀ rest, playRecords env
          (recording env state (transcript env config initial log time) ++ rest) 0 {} origin =
        playRecords env rest time stats room := by
  induction time with
  | zero => exact ⟨origin, {}, start, fun rest => rfl⟩
  | succ time ih =>
    obtain ⟨earlier, later⟩ := (ascending_append _ _ _).mp playable.ascending
    obtain ⟨room, stats, lockstep, played⟩ := ih
      (fun entry positive below => batches entry positive (by omega))
      ⟨fun entry positive below => playable.space entry positive (by omega), earlier⟩
    obtain ⟨after, total, next, continued⟩ := lockstep.next contract accepting future
      (batches (time + 1) (by omega) le_rfl) (playable.space (time + 1) (by omega) le_rfl)
      (by rw [lockstep.sequences]; exact later) (Nat.le_succ time) state
    refine ⟨after, total, next, fun rest => ?_⟩
    rw [transcript, recording_append, append_assoc, played, continued]

/-- If the replay repeats all calls of the run, the next tick is playable, too. -/
theorem Lockstep.playable {total : ReplayStats} {final : Room σ C Sn π} (window : config.rollbackWindowTicks = 0)
    (lockstep : Lockstep env initial config log time stats room)
    (batch : Batch config (log (time + 1))) (earlier : time < through)
    {records : List (ReplayRecord C)}
    (played : playRecords env ((log (time + 1)).map (commandRecord (time + 1)) ++
      .tick (time + 1) :: records) time stats room = some (.ok total, final))
    (repeated : final.observations = transcript env config initial log through) :
    (log (time + 1)).length ≤ config.commandCapacity ∧
      Ascending room.sequences (log (time + 1)) := by
  obtain ⟨own, replica, same⟩ := lockstep.replica
  have current := lockstep.current
  have configured : room.config = config := replica.recorded.invariant.configured
  have space : (log (time + 1)).length ≤ config.commandCapacity := by
    by_contra tooMany
    obtain ⟨_, _, _, blocked⟩ := playRecords_commands env (time + 1) time (log (time + 1)) stats
      room (by rw [current]) (configured ▸ future) batch.valid (Nat.le_succ time)
      (by simp [replica.queue])
    rw [blocked, if_neg (by rwa [replica.queue, configured, length_nil, Nat.zero_add])] at played
    cases played
  refine ⟨space, ?_⟩
  by_contra duplicate
  subst time
  obtain ⟨after, reached, recorded, _, _, _, observations, _, continued⟩ :=
    replica.play_batch contract accepting future batch.valid space (Nat.le_succ room.current) stats
  rw [continued] at played
  have kept := playRecords_extends contract accepting window recorded played
  obtain ⟨tail, split⟩ := transcript_split earlier
  rw [repeated, observations, lockstep.observations, split, prefix_append_right_inj] at kept
  simp only [tickCalls, append_assoc] at kept
  have enough := commands_of_isPrefix kept
  have fewer := Scheduler.length_addAll_lt room.config.maxPendingCommands (room.current + 1)
    (log (room.current + 1)) room.scheduler duplicate
  obtain ⟨_, _, executed⟩ := Room.due_eq_take (room.current + 1) room.config.maxCommandsPerTick
    (batched room (log (room.current + 1))).pending
  rw [length_map, replayed, executed] at enough
  rw [show room.scheduler.pending = [] from replica.pending, length_nil, Nat.zero_add] at fewer
  exact absurd (le_trans enough (length_take_le' _ _)) (Nat.not_le.mpr fewer)

theorem playable_of_repeated {origin final : Room σ C Sn π} {total : ReplayStats} (window : config.rollbackWindowTicks = 0)
    (start : Lockstep env initial config log 0 {} origin) (state : σ)
    (batches : ∀ entry, 0 < entry → entry ≤ through → Batch config (log entry))
    (played : playRecords env
      (recording env state (transcript env config initial log through)) 0 {} origin =
        some (.ok total, final))
    (repeated : final.observations = transcript env config initial log through) (time : Nat)
    (bounded : time ≤ through) : Playable config log time := by
  induction time with
  | zero => exact ⟨fun entry positive below => by omega, trivial⟩
  | succ time ih =>
    have playable := ih (by omega)
    obtain ⟨room, stats, lockstep, continued⟩ := lockstep_of_playable contract accepting future
      start state time (fun entry positive below => batches entry positive (by omega)) playable
    obtain ⟨tail, split⟩ := transcript_split bounded
    rw [split, recording_append, recording_append, continued, recording_tickCalls,
      append_assoc] at played
    obtain ⟨space, ascending⟩ := lockstep.playable contract accepting future window
      (batches (time + 1) (by omega) bounded) bounded played repeated
    refine ⟨fun entry positive below => ?_, ?_⟩
    · by_cases here : entry = time + 1
      · subst entry
        exact space
      · exact playable.space entry positive (by omega)
    · rw [executed, ascending_append]
      rw [lockstep.sequences] at ascending
      exact ⟨playable.ascending, ascending⟩

end

end Lockstep

section Fidelity

open Session (Valid Batch Recorded)

variable {σ C Sn π : Type} {env : Environment σ C Sn π} {initial : σ} {config : RoomConfig}
variable {log : Nat → List (Command C)}

def scheduled (log : Nat → List (Command C)) : Nat → List (Submitted C)
  | 0 => []
  | time + 1 => scheduled log time ++ Scheduler.batch (time + 1) (log (time + 1))

theorem map_scheduled (time : Nat) :
    (scheduled log time).map (·.command) = executed log time := by
  induction time with
  | zero => rfl
  | succ _ ih => simp [scheduled, executed, ih, Scheduler.batch, comp_def]

theorem filter_scheduled (time tick : Nat) :
    (scheduled log time).filter (fun input => input.target = tick) =
      if 0 < tick ∧ tick ≤ time then Scheduler.batch tick (log tick) else [] := by
  induction time with
  | zero =>
    rw [if_neg (by omega)]
    rfl
  | succ time ih =>
    rw [scheduled, filter_append, ih]
    by_cases here : time + 1 = tick
    · subst tick
      rw [if_neg (by omega), if_pos (by omega), nil_append, filter_eq_self]
      intro input member
      obtain ⟨command, _, rfl⟩ := mem_map.mp member
      exact decide_eq_true rfl
    · have none_ : (Scheduler.batch (time + 1) (log (time + 1))).filter
          (fun input => decide (input.target = tick)) = [] := by
        rw [filter_eq_nil_iff]
        intro input member
        obtain ⟨command, _, rfl⟩ := mem_map.mp member
        simpa using here
      rw [none_, append_nil]
      simp only [show (0 < tick ∧ tick ≤ time) = (0 < tick ∧ tick ≤ time + 1) by
        rw [eq_iff_iff]; omega]

theorem recordedCommands_append (first second : List (ReplayRecord C)) :
    recordedCommands (first ++ second) = recordedCommands first ++ recordedCommands second := by
  simp [recordedCommands]

theorem recordedCommands_batch (number : Nat) (commands : List (Command C)) :
    recordedCommands (commands.map (commandRecord number)) = Scheduler.batch number commands := by
  induction commands with
  | nil => rfl
  | cons _ _ ih => exact congrArg (cons _) ih

theorem recordedCommands_snapshot (state reached : σ) (tick : Tick) :
    recordedCommands (recording env state (snapshotCalls env tick reached)) = [] := by
  unfold snapshotCalls
  split
  · rfl
  · split
    · rfl
    · simp only [recording, flatMap_cons, recordCall]
      split
      · rfl
      · rfl

theorem recordedCommands_transcript (state : σ) (time : Nat) :
    recordedCommands (recording env state (transcript env config initial log time)) =
      scheduled log time := by
  induction time with
  | zero => rfl
  | succ _ ih =>
    rw [transcript, recording_append, recordedCommands_append, ih, recording_tickCalls,
      recordedCommands_append, recordedCommands_batch, scheduled]
    refine congrArg (_ ++ ·) ((congrArg (_ ++ ·) ?_).trans (append_nil _))
    split
    · exact recordedCommands_snapshot state _ _
    · rfl

theorem mem_executed {time : Nat} {command : Command C} (member : command ∈ executed log time) :
    ∃ entry, 0 < entry ∧ entry ≤ time ∧ command ∈ log entry := by
  induction time with
  | zero => cases member
  | succ time ih =>
    rcases mem_append.mp member with old | new
    · obtain ⟨entry, positive, below, found⟩ := ih old
      exact ⟨entry, positive, Nat.le_succ_of_le below, found⟩
    · exact ⟨time + 1, Nat.succ_pos time, le_rfl, new⟩

theorem orderly_iff_playable (state : σ) (time : Nat)
    (batches : ∀ entry, 0 < entry → entry ≤ time → Batch config (log entry)) :
    Orderly config.commandCapacity
        (recording env state (transcript env config initial log time)) ↔
      Playable config log time := by
  have numbered : ∀ command ∈ executed log time, 0 < command.sequence := by
    intro command member
    obtain ⟨entry, positive, below, found⟩ := mem_executed member
    exact Nat.pos_of_ne_zero ((batches entry positive below).valid command found).sequence
  have ascending : Ascending (fun _ => none) (executed log time) ↔
      (scheduled log time).Pairwise (fun earlier later =>
        earlier.command.player = later.command.player →
          earlier.command.sequence < later.command.sequence) := by
    rw [ascending_iff_pairwise, ← map_scheduled, pairwise_map, map_scheduled]
    exact and_iff_right numbered
  have capacity : (∀ tick, ((scheduled log time).filter
        (fun input => input.target = tick)).length ≤ config.commandCapacity) ↔
      ∀ entry, 0 < entry → entry ≤ time → (log entry).length ≤ config.commandCapacity := by
    constructor
    · intro space entry positive below
      have short := space entry
      rw [filter_scheduled, if_pos ⟨positive, below⟩, Scheduler.batch, length_map] at short
      exact short
    · intro space tick
      rw [filter_scheduled]
      split_ifs with inside
      · rw [Scheduler.batch, length_map]
        exact space tick inside.1 inside.2
      · exact Nat.zero_le _
  constructor
  · rintro ⟨pairwise, space⟩
    rw [recordedCommands_transcript] at pairwise space
    exact ⟨capacity.mp space, ascending.mpr pairwise⟩
  · rintro ⟨space, order⟩
    refine ⟨?_, ?_⟩
    all_goals rw [recordedCommands_transcript]
    · exact ascending.mp order
    · exact capacity.mpr space

/-- A replay repeats the recorded run exactly if the recording is orderly. -/
theorem replay_faithful_iff (env : Environment σ C Sn π) (id : String) (config : RoomConfig)
    (initial : σ) (observer : List (Observation C Sn) → Except Error Unit) (publisher : Option π)
    (room : Room σ C Sn π)
    (created : Room.withObserver id config initial (some observer) = .ok room)
    (contract : Contract env config.maxSnapshotBytes)
    (accepting : ∀ command state, (env.simulation.apply command state).1 = .ok ())
    (window : config.rollbackWindowTicks = 0) (session : Session σ C Sn π)
    (reachable : Session.Reachable env (fun _ => True)
      (Session.start { room with publisher }) session)
    (watcher : List (Observation C Sn) → Except Error Unit) (standby : Option π)
    (origin : Room σ C Sn π)
    (fresh : Room.withObserver id config initial (some watcher) = .ok origin) :
    (∃ stats final, playReplay env
        { header := headerOf id config
          records := recording env initial session.room.observations
          last := 0 } { origin with publisher := standby } = some (.ok stats, final) ∧
      stats.commandsSubmitted =
        (recordedCommands (recording env initial session.room.observations)).length ∧
      final.observations = session.room.observations) ↔
      Orderly config.commandCapacity (recording env initial session.room.observations) := by
  have recorded := Session.recorded_reachable contract accepting window
    (Session.recorded_start created publisher) reachable
  have future : 0 < config.maxFutureInputTicks := by
    by_contra none_
    have rejected : config.validate = .error (.invalidConfig "invalid room limits") := by
      rw [RoomConfig.validate, if_pos]
      omega
    simp [Room.withObserver, rejected, bind, Except.bind] at created
  have start : Lockstep env initial config session.log 0 {} { origin with publisher := standby } := by
    have first : Recorded env initial config (Session.start { origin with publisher := standby }) :=
      Session.recorded_start fresh standby
    rw [withObserver_ok fresh] at first ⊢
    exact ⟨⟨fun _ => [], ⟨first, rfl, rfl⟩, by omega⟩, rfl, rfl, rfl⟩
  have matching : ∀ records, playReplay env
      { header := headerOf id config, records, last := 0 } { origin with publisher := standby } =
        playRecords env records 0 {} { origin with publisher := standby } := by
    intro records
    rw [withObserver_ok fresh]
    simp [playReplay, headerOf, Room.fresh]
  rw [recorded.observations, orderly_iff_playable initial session.room.current recorded.batches]
  simp only [matching]
  constructor
  · rintro ⟨stats, final, played, _, repeated⟩
    exact playable_of_repeated contract accepting future window start initial recorded.batches played
      repeated session.room.current le_rfl
  · intro playable
    obtain ⟨final, stats, lockstep, played⟩ := lockstep_of_playable contract accepting future start
      initial session.room.current recorded.batches playable
    refine ⟨stats, final, ?_, ?_, lockstep.observations⟩
    · have whole := played []
      rw [append_nil] at whole
      exact whole
    · rw [lockstep.submitted, recordedCommands_transcript, ← map_scheduled, length_map]

def silent (_ : List (Observation Nat Nat)) : Except Error Unit := .ok ()

def observedRoom : Room Nat Nat Nat Unit := .fresh "counter" .default 0 (some silent)

def twoTicks (first second : Nat) : Session Nat Nat Nat Unit :=
  ((((Session.start observedRoom).submitted first (counterCommand 1 1)).submitted second
    (counterCommand 2 2)).afterAdvance accepting).afterAdvance accepting

theorem twoTicks_reachable (first second : Nat) :
    Session.Reachable accepting (fun _ => True) (Session.start observedRoom)
      (twoTicks first second) :=
  (((Relation.ReflTransGen.single (.trySubmitAt _ first (counterCommand 1 1))).tail
    (.trySubmitAt _ second (counterCommand 2 2))).tail (.advance _ trivial)).tail
    (.advance _ trivial)

def twoTicksReader (first second : Nat) : ReplayReader Nat :=
  { header := headerOf "counter" .default
    records := recording accepting 0 (twoTicks first second).room.observations
    last := 0 }

theorem replay_faithful_iff_twoTicks :
    ∃ stats final, playReplay accepting (twoTicksReader 1 2) observedRoom =
        some (.ok stats, final) ∧ stats.commandsSubmitted = 2 ∧
      final.observations = (twoTicks 1 2).room.observations := by
  have two : (recordedCommands
      (recording accepting 0 (twoTicks 1 2).room.observations)).length = 2 := by decide +kernel
  have orderly : Orderly RoomConfig.default.commandCapacity
      (recording accepting 0 (twoTicks 1 2).room.observations) := by
    refine ⟨by decide +kernel, fun tick => le_trans (length_filter_le _ _) ?_⟩
    rw [two]
    decide
  obtain ⟨stats, final, played, submitted, repeated⟩ := (replay_faithful_iff accepting "counter"
    .default 0 silent none observedRoom rfl (counter_contract _ (by decide)) (fun _ _ => rfl) rfl _
    (twoTicks_reachable 1 2) silent none observedRoom rfl).mpr orderly
  exact ⟨stats, final, played, submitted.trans two, repeated⟩

/-- Replayed in execution order the command with the smaller sequence is a duplicate. -/
theorem crossed_targets_fail :
    Room.withObserver "counter" .default 0 (some silent) = .ok observedRoom ∧
      Contract accepting RoomConfig.default.maxSnapshotBytes ∧
      (∀ command state, (accepting.simulation.apply command state).1 = .ok ()) ∧
      RoomConfig.default.rollbackWindowTicks = 0 ∧
      (recordedCommands (twoTicksReader 2 1).records).map (·.command) =
        [counterCommand 2 2, counterCommand 1 1] ∧
      (playReplay accepting (twoTicksReader 2 1) observedRoom).map
          (fun outcome => (outcome.1, outcome.2.counters.duplicates)) =
        some (.error (.invalidFrame "replay checkpoint state mismatch"), 1) := by
  refine ⟨rfl, counter_contract _ (by decide), fun _ _ => rfl, rfl, ?_⟩
  decide +kernel

end Fidelity

end Elura.Realtime
