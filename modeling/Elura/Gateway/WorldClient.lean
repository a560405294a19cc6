import Elura.Basis.Runs
import Elura.Core.Protocol

/-!
`TcpWorldClient`: a pool of connections to a world, each driven by a worker that takes requests
from a queue, writes them and matches the responses by their request id. Calls, workers and
connections are numbers; the sending half of the channel a call waits on is the number of the
call. Times are in nanoseconds.
-/

namespace Elura

abbrev WorldReply := Except Error (List UInt8)

structure WorldRequest where
  route : UInt32
  payload : List UInt8
  timeout : Duration
  deriving DecidableEq, Repr

structure PendingWorldRequest where
  frame : Frame
  response : Nat
  deadline : Nat
  deriving DecidableEq, Repr

structure PendingWorldResponse where
  response : Option Nat
  deadline : Nat
  deriving DecidableEq, Repr

/-- `latest` is the last `Instant` there is, and `parse` the JSON parser. -/
structure WorldClientConfig where
  poolSize : Nat
  maxInFlight : Nat
  connectTimeout : Duration
  latest : Nat
  parse : List UInt8 → Option ErrorEnvelope
  pooled : 1 ≤ poolSize ∧ poolSize ≤ 1024
  limited : 1 ≤ maxInFlight ∧ maxInFlight ≤ 4096

def worldConnectionInFlight : Nat := 64

theorem worldConnectionInFlight_limited :
    1 ≤ worldConnectionInFlight ∧ worldConnectionInFlight ≤ 4096 := by
  decide

def WorldClientConfig.new (latest : Nat) (parse : List UInt8 → Option ErrorEnvelope) :
    WorldClientConfig where
  poolSize := 16
  maxInFlight := worldConnectionInFlight
  connectTimeout := .ofSecs 2
  latest
  parse
  pooled := by decide
  limited := worldConnectionInFlight_limited

abbrev PendingWorld := List (UInt64 × PendingWorldResponse)

namespace PendingWorld

def insert (pending : PendingWorld) (id : UInt64) (response : PendingWorldResponse) :
    PendingWorld :=
  (id, response) :: pending.filter (·.1 ≠ id)

def find (pending : PendingWorld) (id : UInt64) : Option PendingWorldResponse :=
  (pending.find? (·.1 = id)).map Prod.snd

def remove (pending : PendingWorld) (id : UInt64) : PendingWorld :=
  pending.filter (·.1 ≠ id)

def failWorldRequests (pending : PendingWorld) : List (Nat × WorldReply) :=
  (pending.filterMap (·.2.response)).map (·, .error .unavailable)

def hasActiveWorldRequests (pending : PendingWorld) : Bool :=
  pending.any (·.2.response.isSome)

def nextDeadline (pending : PendingWorld) : Option Nat :=
  ((pending.filter (·.2.response.isSome)).map (·.2.deadline)).min?

def expire (pending : PendingWorld) (now : Nat) : PendingWorld :=
  pending.map (fun (id, entry) =>
    (id, if entry.deadline ≤ now then { entry with response := none } else entry))

def expired (pending : PendingWorld) (now : Nat) : List (Nat × WorldReply) :=
  ((pending.filter (·.2.deadline ≤ now)).filterMap (·.2.response)).map (·, .error .timeout)

end PendingWorld

/-- Where a worker waits: for the first request, for a connection, for the socket to
take a frame, or in `select!`. -/
inductive WorkerPhase
  | idle
  | connecting (first : PendingWorldRequest)
  | writing (connection : Nat) (pending : PendingWorld) (inputOpen : Bool)
      (request : PendingWorldRequest) (expiry : Nat)
  | selecting (connection : Nat) (pending : PendingWorld) (inputOpen : Bool)
  | finished
  deriving DecidableEq, Repr

structure WorldWorker where
  queue : List PendingWorldRequest
  phase : WorkerPhase
  deriving DecidableEq, Repr

inductive WorkerEvent
  | receive
  | close
  | connected
  | connectFailed (error : Error)
  | connectExpired
  | written
  | writeFailed
  | writeExpired
  | read (frame : Frame)
  | readFailed
  | expire
  deriving DecidableEq, Repr

namespace WorldWorker

def settle (connection : Nat) (pending : PendingWorld) (inputOpen : Bool) : WorkerPhase :=
  if inputOpen || pending.hasActiveWorldRequests then .selecting connection pending inputOpen
  else .finished

def proceed (connection : Nat) (pending : PendingWorld) (inputOpen : Bool) : WorkerPhase :=
  if pending ≠ [] ∧ ¬pending.hasActiveWorldRequests then .idle
  else settle connection pending inputOpen

def start (config : WorldClientConfig) (now connection : Nat) (pending : PendingWorld)
    (inputOpen : Bool) (request : PendingWorldRequest) : WorkerPhase × List (Nat × WorldReply) :=
  if request.deadline ≤ now then
    (settle connection pending inputOpen, [(request.response, .error .timeout)])
  else
    (.writing connection pending inputOpen request
      (now + min (request.deadline - now) config.connectTimeout), [])

def complete (config : WorldClientConfig) (frame : Frame) : WorldReply :=
  match frame.kind with
  | .response => .ok frame.payload
  | .error =>
    match ErrorEnvelope.fromSlice config.parse frame.payload with
    | .ok envelope => .error envelope.intoError
    | .error error => .error error
  | .request | .push => .error (.invalidFrame "unexpected World response")

/-- A step of `world_connection_worker` and what it answers to whom. `fresh` is the
number of a new connection. -/
def step (config : WorldClientConfig) (now fresh : Nat) (worker : WorldWorker) :
    WorkerEvent → Option (WorldWorker × List (Nat × WorldReply))
  | .receive =>
    match worker.phase, worker.queue with
    | .idle, first :: queue =>
      if first.deadline ≤ now then
        some ({ queue, phase := .idle }, [(first.response, .error .timeout)])
      else some ({ queue, phase := .connecting first }, [])
    | .selecting connection pending true, request :: queue =>
      if pending.length < config.maxInFlight then
        let (phase, replies) := start config now connection pending true request
        some ({ queue, phase }, replies)
      else none
    | _, _ => none
  | .close =>
    match worker.phase, worker.queue with
    | .idle, [] => some ({ worker with phase := .finished }, [])
    | .selecting connection pending true, [] =>
      if pending.length < config.maxInFlight then
        some ({ worker with phase := settle connection pending false }, [])
      else none
    | _, _ => none
  | .connected =>
    match worker.phase with
    | .connecting first =>
      let (phase, replies) := start config now fresh [] true first
      some ({ worker with phase }, replies)
    | _ => none
  | .connectFailed error =>
    match worker.phase with
    | .connecting first => some ({ worker with phase := .idle }, [(first.response, .error error)])
    | _ => none
  | .connectExpired =>
    match worker.phase with
    | .connecting first =>
      if first.deadline ≤ now then
        some ({ worker with phase := .idle }, [(first.response, .error .timeout)])
      else none
    | _ => none
  | .written =>
    match worker.phase with
    | .writing connection pending inputOpen request _ =>
      some ({ worker with
        phase := settle connection (pending.insert request.frame.requestId
          { response := some request.response, deadline := request.deadline }) inputOpen }, [])
    | _ => none
  | .writeFailed =>
    match worker.phase with
    | .writing _ pending _ request _ =>
      some ({ worker with phase := .idle },
        (request.response, .error .unavailable) :: pending.failWorldRequests)
    | _ => none
  | .writeExpired =>
    match worker.phase with
    | .writing _ pending _ request expiry =>
      if expiry ≤ now then
        some ({ worker with phase := .idle },
          (request.response, .error .unavailable) :: pending.failWorldRequests)
      else none
    | _ => none
  | .read frame =>
    match worker.phase with
    | .selecting connection pending inputOpen =>
      match pending.find frame.requestId with
      | none => some ({ worker with phase := .idle }, pending.failWorldRequests)
      | some completion =>
        some ({ worker with
          phase := proceed connection (pending.remove frame.requestId) inputOpen },
          completion.response.toList.map (·, complete config frame))
    | _ => none
  | .readFailed =>
    match worker.phase with
    | .selecting _ pending _ =>
      some ({ worker with phase := .idle }, pending.failWorldRequests)
    | _ => none
  | .expire =>
    match worker.phase with
    | .selecting connection pending inputOpen =>
      if pending.nextDeadline.any (· ≤ now) then
        some ({ worker with phase := proceed connection (pending.expire now) inputOpen },
          pending.expired now)
      else none
    | _ => none

end WorldWorker

inductive WorldCallStage
  | begun
  | enqueueing
  | waiting
  | done (result : WorldReply)
  deriving DecidableEq

structure WorldSubmission where
  frame : Frame
  sender : Nat
  deadline : Nat
  deriving DecidableEq, Repr

/-- A call of `command`. `reply` is the channel it waits on. -/
structure WorldCall where
  slot : Nat
  request : WorldRequest
  submission : Option WorldSubmission
  reply : Option WorldReply
  stage : WorldCallStage
  deriving DecidableEq

namespace WorldCall

/-- The answer is lost if the call has already returned. -/
def send (call : WorldCall) (reply : WorldReply) : WorldCall :=
  match call.stage with
  | .done _ => call
  | _ => { call with reply := some reply }

def holds (call : WorldCall) (worker : Nat) : Bool :=
  match call.stage with
  | .enqueueing | .waiting => call.submission.any (·.sender = worker)
  | .begun | .done _ => false

end WorldCall

structure WorldConnection where
  worker : Nat
  sent : List Frame
  received : List Frame
  deriving DecidableEq, Repr

/-- `completions` are the results of the calls that have returned, with the time. -/
structure TcpWorldClient where
  clock : Nat
  next : UInt64
  transportRequestId : UInt64
  pool : Nat → Option Nat
  workers : List WorldWorker
  calls : List WorldCall
  connections : List WorldConnection
  completions : List (Nat × WorldReply × Nat)

def nextTransportRequestId (current : UInt64) : UInt64 :=
  if current = 0xFFFFFFFFFFFFFFFF then 1 else current + 1

namespace TcpWorldClient

def new (clock : Nat) : TcpWorldClient where
  clock
  next := 0
  transportRequestId := 1
  pool := fun _ => none
  workers := []
  calls := []
  connections := []
  completions := []

def held (config : WorldClientConfig) (client : TcpWorldClient) (worker : Nat) : Bool :=
  (List.range config.poolSize).any (fun slot => client.pool slot = some worker) ||
    client.calls.any (·.holds worker)

def answer (client : TcpWorldClient) (replies : List (Nat × WorldReply)) : TcpWorldClient :=
  { client with
    calls := client.calls.mapIdx (fun index call =>
      match replies.lookup index with
      | some reply => call.send reply
      | none => call) }

def connectionSender (client : TcpWorldClient) (slot : Nat) : Nat × TcpWorldClient :=
  let spawned : Nat × TcpWorldClient := (client.workers.length, { client with
    workers := client.workers ++ [{ queue := [], phase := .idle }]
    pool := Function.update client.pool slot (some client.workers.length) })
  match client.pool slot with
  | some sender =>
    if client.workers[sender]?.any (·.phase ≠ .finished) then (sender, client) else spawned
  | none => spawned

def invalidateConnectionSender (client : TcpWorldClient) (slot sender : Nat) : TcpWorldClient :=
  if client.pool slot = some sender then
    { client with pool := Function.update client.pool slot none }
  else client

def finish (client : TcpWorldClient) (index : Nat) (call : WorldCall) (result : WorldReply) :
    TcpWorldClient :=
  { client with
    calls := client.calls.set index { call with stage := .done result }
    completions := (index, result, client.clock) :: client.completions }

def submit (config : WorldClientConfig) (client : TcpWorldClient) (index : Nat)
    (call : WorldCall) : TcpWorldClient :=
  let id := client.transportRequestId
  let numbered := { client with transportRequestId := nextTransportRequestId id }
  match Frame.request call.request.route id call.request.payload with
  | .error error => numbered.finish index call (.error error)
  | .ok frame =>
    let (sender, connected) := numbered.connectionSender call.slot
    if client.clock + call.request.timeout ≤ config.latest then
      { connected with
        calls := connected.calls.set index { call with
          submission := some
            { frame, sender, deadline := client.clock + call.request.timeout }
          stage := .enqueueing } }
    else
      connected.finish index call
        (.error (.invalidConfig "World request timeout is too large"))

def enqueue (client : TcpWorldClient) (index : Nat) (call : WorldCall) (submission : WorldSubmission)
    (worker : WorldWorker) : TcpWorldClient :=
  { client with
    workers := client.workers.set submission.sender { worker with
      queue := worker.queue ++
        [{ frame := submission.frame, response := index, deadline := submission.deadline }] }
    calls := client.calls.set index { call with stage := .waiting } }

/-- The call is polled. A timer is looked at after what it limits. -/
def poll (config : WorldClientConfig) (client : TcpWorldClient) (index : Nat) :
    Option TcpWorldClient := do
  let call ← client.calls[index]?
  match call.stage, call.submission with
  | .begun, _ => return client.submit config index call
  | .enqueueing, some submission =>
    let worker ← client.workers[submission.sender]?
    if worker.phase = .finished then
      return client.finish index call (.error .unavailable)
    else if worker.queue.length < config.maxInFlight then
      return client.enqueue index call submission worker
    else if submission.deadline ≤ client.clock then
      return client.finish index call (.error .timeout)
    else return client
  | .waiting, some submission =>
    let worker ← client.workers[submission.sender]?
    match call.reply with
    | some reply => return client.finish index call reply
    | none =>
      -- the request went down with the queue of its worker
      if worker.phase = .finished then
        return client.finish index call (.error .unavailable)
      else if submission.deadline ≤ client.clock then
        return (client.invalidateConnectionSender call.slot submission.sender).finish index call
          (.error .timeout)
      else return client
  | _, _ => none

inductive Action
  | elapse (later : Nat)
  | begin (request : WorldRequest)
  | poll (call : Nat)
  | work (worker : Nat) (event : WorkerEvent)
  deriving DecidableEq

def record (client : TcpWorldClient) (index : Nat) (worker : WorldWorker) (event : WorkerEvent) :
    List WorldConnection :=
  match event, worker.phase with
  | .connected, _ => client.connections ++ [{ worker := index, sent := [], received := [] }]
  | .written, .writing connection _ _ request _ =>
    client.connections.modify connection (fun log =>
      { log with sent := request.frame :: log.sent })
  | .read frame, .selecting connection _ _ =>
    client.connections.modify connection (fun log =>
      { log with received := frame :: log.received })
  | _, _ => client.connections

def work (config : WorldClientConfig) (client : TcpWorldClient) (index : Nat)
    (event : WorkerEvent) : Option TcpWorldClient := do
  let worker ← client.workers[index]?
  if event = .close ∧ client.held config index then none
  else
    let (after, replies) ← worker.step config client.clock client.connections.length event
    return { client with
      workers := client.workers.set index after
      connections := client.record index worker event }.answer replies

def step (config : WorldClientConfig) (client : TcpWorldClient) : Action → Option TcpWorldClient
  | .elapse later => if client.clock ≤ later then some { client with clock := later } else none
  | .begin request =>
    some { client with
      next := client.next + 1
      calls := client.calls ++ [{
        slot := client.next.toNat % config.poolSize
        request
        submission := none
        reply := none
        stage := .begun }] }
  | .poll index => client.poll config index
  | .work index event => client.work config index event

def Step (config : WorldClientConfig) (client : TcpWorldClient) (action : Action)
    (after : TcpWorldClient) : Prop :=
  client.step config action = some after

end TcpWorldClient

end Elura
