import Elura.Gateway.Kick
import Elura.Gateway.Serve

/-!
Gateways that share an online directory, a session-control transport and a push transport. Each
connection is served as in `Serve`; published events and pushes reach gateways in any order and
any number of times.
-/

namespace Elura

namespace GatewayServer

def connect (server : GatewayServer) (session : Uuid) (pushes : PushQueue) : GatewayServer :=
  { server with
    sessions := server.sessions.insert session
      { pushes, disconnect := false, watched := true, authenticated := false } }

def enter (server : GatewayServer) (session : Uuid) (identity : Identity) : GatewayServer :=
  { server with
    sessions := match server.sessions[session]? with
      | some handle => server.sessions.insert session { handle with authenticated := true }
      | none => server.sessions
    index := server.index.insert session identity }

def leave (server : GatewayServer) (session : Uuid) : GatewayServer :=
  { server with
    sessions := server.sessions.erase session
    index := server.index.remove session
    topics := fun topic => (server.topics topic).erase session }

def refill (server : GatewayServer) (session : Uuid) (pushes : PushQueue) : GatewayServer :=
  match server.sessions[session]? with
  | some handle => { server with sessions := server.sessions.insert session { handle with pushes } }
  | none => server

end GatewayServer

structure Connection (ι : Type) where
  gateway : ι
  session : Gateway.Session
  phase : ServePhase

def Connection.new {ι : Type} (gateway : ι) (session : Uuid) : Connection ι where
  gateway
  session := .new session
  phase := .waiting

/-- `logins` are the sessions that have authenticated, newest first; `displaced` pairs a session
with one its acquisition reported; `handled` and `pushed` record where a login event and a
disconnecting push have been dealt with. -/
structure Cluster (ι : Type) where
  directory : MemoryOnlineDirectory
  store : MemoryReplayProtectionStore
  clock : Nat
  connections : Uuid → Option (Connection ι)
  servers : ι → GatewayServer
  pushes : List PushRequest
  logins : List (Uuid × PlayerKey)
  displaced : List (Uuid × Uuid)
  handled : List (Uuid × ι)
  pushed : List (Uuid × ι)

namespace ServePhase

def Open : ServePhase → Prop
  | closed => False
  | _ => True

def Running : ServePhase → Prop
  | waiting | handling _ => True
  | cleaning _ | closed => False

theorem not_running {phase : ServePhase} (closed : ¬phase.Open) : ¬phase.Running := by
  cases phase with
  | closed => exact id
  | _ => exact absurd trivial closed

def entering : ServePhase → ServePhase → Option Identity
  | handling (.consuming ..), handling (.publishing claims _) => some claims.identity
  | _, _ => none

def reporting : ServePhase → ServePhase → List Uuid
  | handling (.acquiring _), handling (.acquired _ (.ok previous)) => previous
  | _, _ => []

def Sending : ServePhase → Prop
  | handling (.publishing ..) | handling (.kicking ..) => True
  | _ => False

def settle (before after : ServePhase) (session : Uuid) (server : GatewayServer) : GatewayServer :=
  match after with
  | closed => server.leave session
  | _ =>
    match entering before after with
    | some identity => server.enter session identity
    | none => server

end ServePhase

namespace ServeWorld.Action

def Own : ServeWorld.Action → Prop
  | elapse _ | foreign _ => False
  | _ => True

end ServeWorld.Action

namespace Cluster

variable {ι : Type} [DecidableEq ι]

def start (store : MemoryReplayProtectionStore) (clock : Nat) : Cluster ι where
  directory := .new
  store
  clock
  connections := fun _ => none
  servers := fun _ =>
    { sessions := ∅, index := .new, topics := fun _ => ∅, online := none, published := [] }
  pushes := []
  logins := []
  displaced := []
  handled := []
  pushed := []

omit [DecidableEq ι] in
def view (cluster : Cluster ι) (connection : Connection ι) : ServeWorld where
  gateway :=
    { session := connection.session, directory := cluster.directory, store := cluster.store }
  clock := cluster.clock
  phase := connection.phase

def write (cluster : Cluster ι) (session : Uuid) (connection : Connection ι) : Cluster ι :=
  { cluster with connections := Function.update cluster.connections session (some connection) }

def onServer (cluster : Cluster ι) (gateway : ι) (server : GatewayServer) : Cluster ι :=
  { cluster with servers := Function.update cluster.servers gateway server }

theorem servers_onServer (cluster : Cluster ι) (gateway : ι) (server : GatewayServer) (other : ι) :
    (cluster.onServer gateway server).servers other =
      if other = gateway then server else cluster.servers other :=
  Function.update_apply _ _ _ _

def connect (cluster : Cluster ι) (gateway : ι) (session : Uuid) (pushes : PushQueue) :
    Cluster ι :=
  (cluster.onServer gateway ((cluster.servers gateway).connect session pushes)).write session
    (.new gateway session)

def settle (cluster : Cluster ι) (session : Uuid) (connection : Connection ι)
    (after : ServeWorld) : Cluster ι :=
  { cluster with
    directory := after.gateway.directory
    store := after.gateway.store
    connections := Function.update cluster.connections session
      (some { connection with session := after.gateway.session, phase := after.phase })
    servers := Function.update cluster.servers connection.gateway
      (connection.phase.settle after.phase session (cluster.servers connection.gateway))
    logins := ((connection.phase.entering after.phase).map
      (fun identity => (session, identity.playerKey))).toList ++ cluster.logins
    displaced := (connection.phase.reporting after.phase).map (session, ·) ++ cluster.displaced }

inductive Action (ι : Type)
  | elapse (later : Nat)
  | refill (gateway : ι) (session : Uuid) (pushes : PushQueue)
  | connect (gateway : ι) (session : Uuid) (pushes : PushQueue)
  | serve (session : Uuid) (action : ServeWorld.Action)
  | publish (session : Uuid) (sent : Bool)
  | kick (session : Uuid) (sent : Uuid → Bool)
  | handleEvent (gateway : ι) (order : HashOrder Uuid) (event : SessionControlEvent)
  | deliverPush (gateway : ι) (order : HashOrder Uuid) (request : PushRequest)

omit [DecidableEq ι] in
def Published (cluster : Cluster ι) (event : SessionControlEvent) : Prop :=
  ∃ gateway, event ∈ (cluster.servers gateway).published

inductive Step (contexts : ι → ConnectionContext) (cluster : Cluster ι) :
    Action ι → Cluster ι → Prop
  | elapse (later : Nat) (forward : cluster.clock ≤ later) :
      Step contexts cluster (.elapse later) { cluster with clock := later }
  | refill (gateway : ι) (session : Uuid) (pushes : PushQueue) :
      Step contexts cluster (.refill gateway session pushes)
        (cluster.onServer gateway ((cluster.servers gateway).refill session pushes))
  | connect (gateway : ι) (session : Uuid) (pushes : PushQueue)
      (unused : cluster.connections session = none) (named : session ≠ 0) :
      Step contexts cluster (.connect gateway session pushes)
        (cluster.connect gateway session pushes)
  | serve (session : Uuid) (connection : Connection ι) (action : ServeWorld.Action)
      (after : ServeWorld) (found : cluster.connections session = some connection)
      (own : action.Own) (quiet : action = .progress → ¬connection.phase.Sending)
      (told : action = .disconnect → (cluster.servers connection.gateway).Told session)
      (step : ServeWorld.Step (contexts connection.gateway) (cluster.view connection) action after) :
      Step contexts cluster (.serve session action) (cluster.settle session connection after)
  | publish (session : Uuid) (connection : Connection ι) (claims : TicketClaims)
      (previous : List Uuid) (sent : Bool)
      (found : cluster.connections session = some connection)
      (busy : connection.phase = .handling (.publishing claims previous)) :
      Step contexts cluster (.publish session sent)
        ((cluster.onServer connection.gateway
          { cluster.servers connection.gateway with
            published := (if sent then [GatewayServer.loginEvent claims.identity session] else []) ++
              (cluster.servers connection.gateway).published }).write session
          { connection with phase := .handling (.kicking claims previous) })
  | kick (session : Uuid) (connection : Connection ι) (claims : TicketClaims)
      (previous : List Uuid) (sent : Uuid → Bool) (traceId reconnectId : String)
      (found : cluster.connections session = some connection)
      (busy : connection.phase = .handling (.kicking claims previous))
      (short : traceId.utf8ByteSize ≤ 128) :
      Step contexts cluster (.kick session sent)
        ({ cluster.onServer connection.gateway
            ((contexts connection.gateway).kickPrevious previous claims.identity traceId sent
              (cluster.servers connection.gateway, cluster.pushes)).1 with
          pushes := ((contexts connection.gateway).kickPrevious previous claims.identity traceId sent
              (cluster.servers connection.gateway, cluster.pushes)).2 }.write session
          { connection with
            phase := .handling ((contexts connection.gateway).respondReconnect claims.identity
              reconnectId cluster.clock (fun reconnect =>
                .authenticated ⟨connection.session.id, claims.identity, reconnect⟩)) })
  | handleEvent (gateway : ι) (order : HashOrder Uuid) (event : SessionControlEvent)
      (published : cluster.Published event) :
      Step contexts cluster (.handleEvent gateway order event)
        { cluster.onServer gateway
            ((GatewayServer.handle order event).call (cluster.servers gateway)).2 with
          handled := event.keepSessionId.toList.map (·, gateway) ++ cluster.handled }
  | deliverPush (gateway : ι) (order : HashOrder Uuid) (text : List UInt8 → String)
      (request : PushRequest) (session : Uuid) (published : request ∈ cluster.pushes)
      (kicks : request.target = .disconnect session) :
      Step contexts cluster (.deliverPush gateway order request)
        { cluster.onServer gateway
            ((GatewayServer.deliverInner order text request).call (cluster.servers gateway)).2 with
          pushed := (session, gateway) :: cluster.pushed }

end Cluster

end Elura
