import Elura.Basis.Rust
import Elura.Core.Values

/-!
The authoritative room: a command queue, a scheduler of pending commands, a history of recent
ticks and a simulation that can be rolled back to a recorded tick. The simulation, the snapshot
publisher and SHA-256 are supplied from outside; the observer is the list of calls made to it.
-/

namespace Elura.Realtime

open Std (ExtTreeMap)

structure RoomConfig where
  tickRate : Nat
  inputDelayTicks : Nat
  maxFutureInputTicks : Nat
  commandCapacity : Nat
  maxPendingCommands : Nat
  maxCommandsPerTick : Nat
  snapshotInterval : Nat
  rollbackWindowTicks : Nat
  maxSnapshotBytes : Nat
  publishTimeout : Nat
  deriving DecidableEq, Repr

def RoomConfig.default : RoomConfig where
  tickRate := 30
  inputDelayTicks := 2
  maxFutureInputTicks := 600
  commandCapacity := 1024
  maxPendingCommands := 4096
  maxCommandsPerTick := 256
  snapshotInterval := 2
  rollbackWindowTicks := 0
  maxSnapshotBytes := 16 * 2 ^ 20
  publishTimeout := 50000000

def RoomConfig.validate (config : RoomConfig) : Except Error Unit :=
  if config.tickRate < 1 ∨ 240 < config.tickRate ∨ config.maxFutureInputTicks = 0 ∨
      config.commandCapacity = 0 ∨ config.maxPendingCommands = 0 ∨
      config.maxCommandsPerTick = 0 ∨ config.snapshotInterval = 0 ∨
      10000 < config.rollbackWindowTicks ∨ config.maxSnapshotBytes = 0 ∨
      config.publishTimeout = 0 then
    .error (.invalidConfig "invalid room limits")
  else .ok ()

structure Command (C : Type) where
  player : PlayerKey
  sequence : Nat
  value : C
  deriving DecidableEq, Repr

structure Tick where
  number : Nat
  delta : Nat
  elapsed : Nat
  deriving DecidableEq, Repr

structure Finalization where
  roomId : String
  throughTick : Nat
  elapsed : Nat
  deriving DecidableEq, Repr

structure Snapshot (Sn : Type) where
  roomId : String
  tick : Nat
  elapsed : Nat
  state : Sn
  stateHash : StateHash
  deriving DecidableEq, Repr

/-- What the application implements. Every method may fail; a failing `&mut self`
method may still have changed the state. -/
structure AuthoritativeSimulation (σ C Sn : Type) where
  apply : Command C → σ → Except Error Unit × σ
  step : Tick → σ → Except Error Unit × σ
  snapshot : Tick → σ → Except Error Sn
  encodeSnapshot : Sn → σ → Except Error (List UInt8)
  restore : Tick → Sn → σ → Except Error Unit × σ

/-- How a publication ended: the publisher answered, or the room's timeout
dropped the future while it was pending. -/
inductive Publication
  | completed
  | failed (error : Error)
  | timedOut
  deriving DecidableEq, Repr

structure SnapshotPublisher (π Sn : Type) where
  publish : Snapshot Sn → π → Publication × π
  forceKeyframe : π → π

structure Environment (σ C Sn π : Type) where
  simulation : AuthoritativeSimulation σ C Sn
  publisher : SnapshotPublisher π Sn
  sha256 : List UInt8 → Vector UInt8 32

inductive Observation (C Sn : Type)
  | command (tick : Nat) (command : Command C)
  | tick (tick : Tick)
  | snapshot (tick : Tick) (snapshot : Sn) (hash : StateHash)
  | rollback (first through : Nat)
  deriving DecidableEq, Repr

structure Counters where
  ticks : Nat := 0
  tickFailures : Nat := 0
  accepted : Nat := 0
  queueFull : Nat := 0
  received : Nat := 0
  applied : Nat := 0
  rejected : Nat := 0
  duplicates : Nat := 0
  late : Nat := 0
  snapshots : Nat := 0
  snapshotErrors : Nat := 0
  published : Nat := 0
  publicationErrors : Nat := 0
  observerErrors : Nat := 0
  rollbacks : Nat := 0
  rollbackFailures : Nat := 0
  resimulated : Nat := 0
  finalizations : Nat := 0
  deriving DecidableEq, Repr

structure Submitted (C : Type) where
  target : Nat
  command : Command C
  deriving DecidableEq, Repr

structure Scheduled (C : Type) where
  target : Nat
  order : Nat
  command : Command C
  deriving DecidableEq, Repr

/-- The order in which the heap is popped: earliest target, then arrival. -/
def Scheduled.Before {C : Type} (left right : Scheduled C) : Prop :=
  left.target < right.target ∨ left.target = right.target ∧ left.order ≤ right.order

instance {C : Type} (left right : Scheduled C) : Decidable (left.Before right) :=
  inferInstanceAs (Decidable (_ ∨ _))

structure TickRecord (C Sn : Type) where
  commands : List (Command C)
  snapshot : Sn
  hash : StateHash
  deriving DecidableEq, Repr

/-- `queue` is the content of the bounded channel, `pending` the heap as the list
in which it is popped, `sequences` the last sequence of each player. The observer
decides the answer to a call from all calls made to it so far. -/
structure Room (σ C Sn π : Type) where
  id : String
  config : RoomConfig
  delta : Nat
  simulation : σ
  queue : List (Submitted C)
  pending : List (Scheduled C)
  history : ExtTreeMap Nat (TickRecord C Sn)
  sequences : PlayerKey → Option Nat
  order : Nat
  initialized : Bool
  snapshots : Option Sn
  finalizations : Option Finalization
  current : Nat
  finalized : Nat
  running : Bool
  counters : Counters
  observer : Option (List (Observation C Sn) → Except Error Unit)
  observations : List (Observation C Sn)
  publisher : Option π

def tickAt (delta number : Nat) : Tick :=
  { number, delta, elapsed := delta * min number (2 ^ 32 - 1) }

namespace Room

section Definitions

variable {σ C Sn π : Type}

/-- `1 / tick_rate` seconds, rounded to the nearest nanosecond. -/
def tickDelta (tickRate : Nat) : Nat := (2 * 10 ^ 9 + tickRate) / (2 * tickRate)

def fresh (id : String) (config : RoomConfig) (simulation : σ)
    (observer : Option (List (Observation C Sn) → Except Error Unit)) : Room σ C Sn π where
  id
  config
  delta := tickDelta config.tickRate
  simulation
  queue := []
  pending := []
  history := ∅
  sequences := fun _ => none
  order := 0
  initialized := false
  snapshots := none
  finalizations := none
  current := 0
  finalized := 0
  running := false
  counters := {}
  observer
  observations := []
  publisher := none

def withObserver (id : String) (config : RoomConfig) (simulation : σ)
    (observer : Option (List (Observation C Sn) → Except Error Unit)) :
    Except Error (Room σ C Sn π) := do
  config.validate
  if id.utf8ByteSize = 0 ∨ 128 < id.utf8ByteSize then
    throw (.invalidConfig "invalid room id")
  return fresh id config simulation observer

def new (id : String) (config : RoomConfig) (simulation : σ) : Except Error (Room σ C Sn π) :=
  withObserver id config simulation none

def withPublisher (room : Room σ C Sn π) (publisher : π) : Room σ C Sn π :=
  { room with publisher := some publisher }

def tick (room : Room σ C Sn π) (number : Nat) : Tick := tickAt room.delta number

def count (room : Room σ C Sn π) (change : Counters → Counters) : Room σ C Sn π :=
  { room with counters := change room.counters }

def observe (room : Room σ C Sn π) (call : Observation C Sn) : Room σ C Sn π :=
  match room.observer with
  | none => room
  | some observer =>
    let noted := { room with observations := room.observations ++ [call] }
    match observer noted.observations with
    | .ok _ => noted
    | .error _ => noted.count (fun counters =>
      { counters with observerErrors := counters.observerErrors + 1 })

section Submission

def validate (room : Room σ C Sn π) (target : Nat) (command : Command C) : Except Error Unit :=
  if target = 0 ∨ command.player.validate ≠ .ok () ∨ command.sequence = 0 ∨
      room.current + room.config.maxFutureInputTicks < target then
    .error (.invalidConfig "invalid room command")
  else if target ≤ room.current ∧
      (room.config.rollbackWindowTicks = 0 ∨ target ≤ room.finalized) then
    .error (.invalidConfig "target tick cannot be changed")
  else .ok ()

def enqueue (room : Room σ C Sn π) (target : Nat) (command : Command C) : Room σ C Sn π :=
  { room with
    queue := room.queue ++ [{ target, command }]
    counters := { room.counters with accepted := room.counters.accepted + 1 } }

def trySubmitAt (target : Nat) (command : Command C) : Fallible (Room σ C Sn π) Error Unit := do
  let room ← get
  liftM (room.validate target command)
  if room.queue.length < room.config.commandCapacity then
    set (room.enqueue target command)
  else
    set (room.count (fun counters => { counters with queueFull := counters.queueFull + 1 }))
    throw .queueFull

/-- `none` while the channel is full: the call waits for the next drain. -/
def submitAt (room : Room σ C Sn π) (target : Nat) (command : Command C) :
    Option (Except Error Unit × Room σ C Sn π) :=
  match room.validate target command with
  | .error error => some (.error error, room)
  | .ok _ =>
    if room.queue.length < room.config.commandCapacity then
      some (.ok (), room.enqueue target command)
    else none

end Submission

section Drain

/-- One iteration of the drain loop; `late` is the earliest changed tick. -/
def receive (room : Room σ C Sn π) (late : Option Nat) (input : Submitted C) :
    Room σ C Sn π × Option Nat :=
  let room := room.count (fun counters => { counters with received := counters.received + 1 })
  let last := (room.sequences input.command.player).getD 0
  if input.command.sequence ≤ last then
    (room.count (fun counters => { counters with duplicates := counters.duplicates + 1 }), late)
  else if input.target ≤ room.current then
    let room := room.count (fun counters => { counters with late := counters.late + 1 })
    match room.history[input.target]? with
    | some record =>
      if record.commands.length < room.config.maxCommandsPerTick then
        ({ room with
           sequences :=
             Function.update room.sequences input.command.player (some input.command.sequence)
           history := room.history.insert input.target
             { record with commands := record.commands ++ [input.command] } },
          some (late.elim input.target (min · input.target)))
      else
        (room.count (fun counters => { counters with rejected := counters.rejected + 1 }), late)
    | none =>
      (room.count (fun counters => { counters with rejected := counters.rejected + 1 }), late)
  else if room.config.maxPendingCommands ≤ room.pending.length then
    (room.count (fun counters => { counters with rejected := counters.rejected + 1 }), late)
  else
    ({ room with
       sequences :=
         Function.update room.sequences input.command.player (some input.command.sequence)
       order := room.order + 1
       pending := room.pending.orderedInsert Scheduled.Before
         { target := input.target, order := room.order + 1, command := input.command } },
      late)

def drainQueue : List (Submitted C) → Room σ C Sn π → Option Nat → Room σ C Sn π × Option Nat
  | [], room, late => (room, late)
  | input :: rest, room, late =>
    let (room, late) := room.receive late input
    drainQueue rest room late

def drain (room : Room σ C Sn π) : Room σ C Sn π × Option Nat :=
  drainQueue room.queue { room with queue := [] } none

end Drain

section Simulation

variable (env : Environment σ C Sn π)

def simulate {α : Type} (method : σ → Except Error α × σ) :
    Fallible (Room σ C Sn π) Error α := do
  let room ← get
  let (result, simulation) := method room.simulation
  set { room with simulation }
  liftM result

def encode (room : Room σ C Sn π) (snapshot : Sn) : Except Error (List UInt8) := do
  let bytes ← env.simulation.encodeSnapshot snapshot room.simulation
  if room.config.maxSnapshotBytes < bytes.length then
    throw (.invalidFrame "snapshot too large")
  return bytes

def captured (room : Room σ C Sn π) (tick : Tick) : Except Error (Sn × StateHash) := do
  let snapshot ← env.simulation.snapshot tick room.simulation
  let bytes ← room.encode env snapshot
  return (snapshot, .digest env.sha256 bytes)

def capture (tick : Tick) : Fallible (Room σ C Sn π) Error (Sn × StateHash) := do
  let room ← get
  match room.captured env tick with
  | .ok value =>
    set (room.count (fun counters => { counters with snapshots := counters.snapshots + 1 }))
    return value
  | .error error =>
    set (room.count (fun counters =>
      { counters with snapshotErrors := counters.snapshotErrors + 1 }))
    throw error

def canonicalState (room : Room σ C Sn π) : Except Error (List UInt8) := do
  let snapshot ← env.simulation.snapshot (room.tick room.current) room.simulation
  room.encode env snapshot

def initializeHistory : Fallible (Room σ C Sn π) Error Unit := do
  let room ← get
  if room.initialized = false then
    let (snapshot, hash) ← capture env (room.tick 0)
    modify (fun room => { room with
      history := room.history.insert 0 { commands := [], snapshot, hash }
      initialized := true })

def applyRecorded : List (Command C) → Fallible (Room σ C Sn π) Error Unit
  | [] => pure ()
  | command :: commands => do
      simulate (env.simulation.apply command)
      applyRecorded commands

def resimulateTicks : List Nat → Fallible (Room σ C Sn π) Error Unit
  | [] => pure ()
  | number :: numbers => do
      let room ← get
      match room.history[number]? with
      | none => throw (.invalidConfig "rollback history")
      | some record =>
        applyRecorded env record.commands
        let tick := room.tick number
        simulate (env.simulation.step tick)
        let (snapshot, hash) ← capture env tick
        modify (fun room => { room with
          history := room.history.insert number { record with snapshot, hash } })
        resimulateTicks numbers

/-- Back to the tick before `first`: the checkpoint's hash is compared before and
after the simulation has been restored from it. -/
def restoreCheckpoint (first : Nat) : Fallible (Room σ C Sn π) Error Unit := do
  let room ← get
  if first = 0 then throw (.invalidConfig "rollback target")
  match room.history[first - 1]? with
  | none => throw (.invalidConfig "rollback window")
  | some checkpoint =>
    let recorded ← liftM (room.encode env checkpoint.snapshot)
    if checkpoint.hash ≠ .digest env.sha256 recorded then
      throw (.invalidFrame "checkpoint corrupted")
    match env.simulation.restore (room.tick (first - 1)) checkpoint.snapshot
        room.simulation with
    | (.error error, simulation) =>
      set (Room.count { room with simulation } (fun counters =>
        { counters with rollbackFailures := counters.rollbackFailures + 1 }))
      throw error
    | (.ok _, simulation) =>
      set { room with simulation }
      let verified ← liftM (env.simulation.snapshot (room.tick (first - 1)) simulation)
      let bytes ← liftM (Room.encode env { room with simulation } verified)
      if checkpoint.hash ≠ .digest env.sha256 bytes then
        throw (.invalidFrame "restore mismatch")

def resimulate (first through : Nat) : Fallible (Room σ C Sn π) Error Unit := do
  restoreCheckpoint env first
  resimulateTicks env (List.range' first (through + 1 - first))
  modify (fun room => room.count (fun counters => { counters with
    rollbacks := counters.rollbacks + 1
    resimulated := counters.resimulated + (through - first + 1) }))
  modify (fun room => { room with publisher := room.publisher.map env.publisher.forceKeyframe })
  modify (fun room => room.observe (.rollback first through))

/-- The command loop of a tick, at most `limit` iterations; a command the
simulation rejects is not recorded. -/
def executeCommands (number : Nat) : Nat → Room σ C Sn π → List (Command C) →
    Room σ C Sn π × List (Command C)
  | 0, room, commands => (room, commands)
  | limit + 1, room, commands =>
    match room.pending with
    | [] => (room, commands)
    | next :: rest =>
      if number < next.target then (room, commands)
      else
        let room := Room.observe { room with pending := rest } (.command number next.command)
        match env.simulation.apply next.command room.simulation with
        | (.ok _, simulation) =>
          executeCommands number limit
            (Room.count { room with simulation } (fun counters =>
              { counters with applied := counters.applied + 1 }))
            (commands ++ [next.command])
        | (.error _, simulation) =>
          executeCommands number limit
            (Room.count { room with simulation } (fun counters =>
              { counters with rejected := counters.rejected + 1 }))
            commands

structure Executed (Sn : Type) where
  tick : Tick
  snapshot : Sn
  hash : StateHash
  deriving DecidableEq, Repr

def executeTick : Fallible (Room σ C Sn π) Error (Executed Sn) := do
  let room ← get
  let number := room.current + 1
  let tick := room.tick number
  let (room, commands) := executeCommands env number room.config.maxCommandsPerTick room []
  set room
  simulate (env.simulation.step tick)
  modify (fun room => room.observe (.tick tick))
  let (snapshot, hash) ← capture env tick
  modify (fun room => { room with
    history := room.history.insert number { commands, snapshot, hash } })
  return { tick, snapshot, hash }

def publish (room : Room σ C Sn π) (executed : Executed Sn) : Room σ C Sn π :=
  match room.publisher with
  | none => room
  | some publisher =>
    let snapshot : Snapshot Sn :=
      { roomId := room.id, tick := executed.tick.number, elapsed := executed.tick.elapsed,
        state := executed.snapshot, stateHash := executed.hash }
    match env.publisher.publish snapshot publisher with
    | (.completed, publisher) =>
      Room.count { room with publisher := some publisher } (fun counters =>
        { counters with published := counters.published + 1 })
    | (.failed _, publisher) | (.timedOut, publisher) =>
      Room.count { room with publisher := some publisher } (fun counters =>
        { counters with publicationErrors := counters.publicationErrors + 1 })

def storeCurrent (room : Room σ C Sn π) (executed : Executed Sn) : Room σ C Sn π :=
  let room := Room.count { room with current := executed.tick.number } (fun counters =>
    { counters with ticks := counters.ticks + 1 })
  if executed.tick.number % room.config.snapshotInterval = 0 then
    let room := { room with snapshots := some executed.snapshot }
    let room := room.observe (.snapshot executed.tick executed.snapshot executed.hash)
    room.publish env executed
  else room

def storeFinalized (room : Room σ C Sn π) (number : Nat) : Room σ C Sn π :=
  let through := number - room.config.rollbackWindowTicks
  let room :=
    if room.finalized < through then
      Room.count { room with
        finalized := through
        finalizations := some { roomId := room.id, throughTick := through,
                                elapsed := (room.tick through).elapsed } }
        (fun counters => { counters with finalizations := counters.finalizations + 1 })
    else room
  { room with history := room.history.filter (fun tick _ => through ≤ tick) }

def drainPhase : Fallible (Room σ C Sn π) Error (Option Nat) := do
  initializeHistory env
  let room ← get
  let (room, late) := room.drain
  set room
  return late

def resimulateLate (late : Option Nat) : Fallible (Room σ C Sn π) Error Unit := do
  let room ← get
  match late with
  | some first => resimulate env first room.current
  | none => pure ()

def simulatePhase (late : Option Nat) : Fallible (Room σ C Sn π) Error (Executed Sn) := do
  resimulateLate env late
  executeTick env

def advanceInner : Fallible (Room σ C Sn π) Error Unit := do
  let late ← drainPhase env
  let executed ← simulatePhase env late
  modify (fun room => room.storeCurrent env executed)
  modify (fun room => room.storeFinalized executed.tick.number)

def failTick (outcome : Except Error Unit × Room σ C Sn π) : Except Error Unit × Room σ C Sn π :=
  match outcome with
  | (.ok _, room) => (.ok (), room)
  | (.error error, room) =>
    (.error error, room.count (fun counters =>
      { counters with tickFailures := counters.tickFailures + 1 }))

def advance (room : Room σ C Sn π) : Except Error Unit × Room σ C Sn π :=
  if room.running then (.error (.invalidConfig "room is running"), room)
  else failTick ((advanceInner env).call room)

end Simulation

end Definitions

end Room

end Elura.Realtime
