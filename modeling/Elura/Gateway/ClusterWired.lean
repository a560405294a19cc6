import Elura.Gateway.Cluster

/-!
What the gateways of a cluster know about their connections. A connection has its
handle and its entry in the index of its gateway exactly while it is open, and it is
among the logins exactly if its session has an identity.
-/

namespace Elura

open Option

open Std (ExtTreeMap)

def HandleStage.Ready (session : Gateway.Session) (stage : HandleStage) : Prop :=
  stage.Sound session ∧
    match stage with
    | .publishing claims _ | .kicking claims _ => session.identity = some claims.identity
    | _ => True

def Identifies (before after : Gateway.Session) (entering : Option Identity) : Prop :=
  entering = none ∧ after.identity = before.identity ∨
    ∃ identity, entering = some identity ∧ before.identity = none ∧
      after.identity = some identity ∧ identity.validate = .ok ()

section Handle

variable {context : ConnectionContext} {now : Nat} {gateway after : Gateway}
  {stage next : HandleStage}

theorem HandleStep.ready (step : HandleStep context now gateway stage after next)
    (ready : stage.Ready gateway.session)
    (anonymous : gateway.session.identity = none → gateway.session.state = .anonymous) :
    after.session.id = gateway.session.id ∧ next.Ready after.session ∧
      (after.session.identity = none → after.session.state = .anonymous) ∧
      Identifies gateway.session after.session
        ((ServePhase.handling stage).entering (.handling next)) := by
  have finished (result : Except Error HandleResponse) :
      (HandleStage.finished result).Ready gateway.session := ⟨trivial, trivial⟩
  cases step with
  | refuse | rejected | remove | kick | refuseReconnect | replayedReconnect | reconnect
  | dispatch => exact ⟨rfl, finished _, anonymous, .inl ⟨rfl, rfl⟩⟩
  | verify _ _ verified =>
    exact ⟨rfl, ⟨ConnectionContext.verifyTicket_ok verified, trivial⟩, anonymous, .inl ⟨rfl, rfl⟩⟩
  | checkAdmission _ answer | checkVersion _ answer =>
    cases answer with
    | error => exact ⟨rfl, finished _, anonymous, .inl ⟨rfl, rfl⟩⟩
    | ok => exact ⟨rfl, ⟨ready.1, trivial⟩, anonymous, .inl ⟨rfl, rfl⟩⟩
  | acquire | accepted => exact ⟨rfl, ⟨ready.1, trivial⟩, anonymous, .inl ⟨rfl, rfl⟩⟩
  | consume claims =>
    rcases used : claims.consume gateway.store (Duration.asSecs now) with
      ⟨error | consumed, store⟩
    · exact ⟨rfl, ⟨ready.1, trivial⟩, anonymous, .inl ⟨rfl, rfl⟩⟩
    · obtain rfl := TicketClaims.consume_ok used
      have known := Gateway.Session.authenticate_anonymous ready.1.2 (anonymous ready.1.1)
      simp only [ConnectionContext.afterConsume, known]
      exact ⟨trivial, ⟨trivial, rfl⟩, fun unknown => absurd unknown (some_ne_none _),
        .inr ⟨consumed.identity, rfl, ready.1.1, rfl, ready.1.2⟩⟩
  | publish =>
    exact ⟨rfl, ⟨trivial, ready.2⟩, anonymous, .inl ⟨rfl, rfl⟩⟩
  | verifyReconnect =>
    exact ⟨rfl, ⟨trivial, trivial⟩, anonymous, .inl ⟨rfl, rfl⟩⟩

end Handle

namespace ServeWorld

variable {context : ConnectionContext} {world after : ServeWorld} {action : Action}

structure Ready (session : Gateway.Session) (phase : ServePhase) : Prop where
  stage : ∀ stage, phase = .handling stage → stage.Ready session
  anonymous : phase.Open → session.identity = none → session.state = .anonymous

theorem Ready.idle {session : Gateway.Session} {phase : ServePhase}
    (still : match phase with | .handling _ => False | _ => True)
    (anonymous : phase.Open → session.identity = none → session.state = .anonymous) :
    Ready session phase := by
  refine ⟨?_, anonymous⟩
  rintro stage rfl
  exact still.elim

theorem ready_leave (ready : Ready world.gateway.session world.phase) (running : world.phase.Open) :
    world.leave.gateway.session.id = world.gateway.session.id ∧
      Ready world.leave.gateway.session world.leave.phase ∧
      world.leave.gateway.session.identity = world.gateway.session.identity ∧
      ∀ phase, ServePhase.entering phase world.leave.phase = none := by
  unfold leave
  cases known : world.gateway.session.identity with
  | some =>
    refine ⟨rfl, .idle trivial (fun _ => ready.anonymous running), known, ?_⟩
    intro phase
    cases phase with
    | handling stage => cases stage <;> rfl
    | _ => rfl
  | none =>
    refine ⟨rfl, .idle trivial (fun impossible => impossible.elim), known, ?_⟩
    intro phase
    cases phase with
    | handling stage => cases stage <;> rfl
    | _ => rfl

theorem Step.ready (step : Step context world action after) (own : action.Own)
    (ready : Ready world.gateway.session world.phase) :
    world.phase.Open ∧ after.gateway.session.id = world.gateway.session.id ∧
      Ready after.gateway.session after.phase ∧
      Identifies world.gateway.session after.gateway.session
        (world.phase.entering after.phase) := by
  cases step with
  | elapse | foreign => exact own.elim
  | authenticate _ idle | reconnect _ idle | dispatch idle =>
    rw [idle] at ready ⊢
    refine ⟨trivial, rfl, ⟨?_, fun _ => ready.anonymous trivial⟩, .inl ⟨rfl, rfl⟩⟩
    rintro stage ⟨⟩
    exact ⟨trivial, trivial⟩
  | progress stage _ _ busy step =>
    rw [busy] at ready ⊢
    obtain ⟨named, kept, anonymous, identifies⟩ :=
      step.ready (ready.stage stage rfl) (ready.anonymous trivial)
    refine ⟨trivial, named, ⟨?_, fun _ => anonymous⟩, identifies⟩
    rintro reached ⟨⟩
    exact kept
  | answer _ here | renew _ _ _ _ here =>
    rw [here] at ready ⊢
    exact ⟨trivial, rfl, .idle trivial (fun _ => ready.anonymous trivial), .inl ⟨rfl, rfl⟩⟩
  | cancel stage busy =>
    rw [busy] at ready ⊢
    refine ⟨trivial, rfl, .idle trivial (fun _ => ready.anonymous trivial), .inl ⟨?_, rfl⟩⟩
    cases stage <;> rfl
  | disconnect _ here | leave here =>
    have running : world.phase.Open := by
      rw [here]
      trivial
    obtain ⟨named, kept, same, none_⟩ := ready_leave ready running
    exact ⟨running, named, kept, .inl ⟨none_ _, same⟩⟩
  | cleanup _ ending | cutOff _ ending =>
    rw [ending]
    exact ⟨trivial, rfl, .idle trivial (fun impossible => impossible.elim), .inl ⟨rfl, rfl⟩⟩

end ServeWorld

namespace GatewayServer

variable {server : GatewayServer} {session : Uuid}

theorem sessions_enter (identity : Identity) (other : Uuid) :
    (server.enter session identity).sessions[other]? =
      if session = other then server.sessions[other]?.map (fun handle =>
        { handle with authenticated := true })
      else server.sessions[other]? := by
  unfold enter
  cases found : server.sessions[session]? with
  | none | some =>
    by_cases same : session = other
    all_goals simp_all [OrderedMap.getElem?_insert_ite]

theorem identities_enter (identity : Identity) (other : Uuid) :
    (server.enter session identity).index.identities[other]? =
      if session = other then some identity else server.index.identities[other]? :=
  OrderedMap.getElem?_insert_ite _ _ _ _

theorem sessions_leave (other : Uuid) : (server.leave session).sessions[other]? =
    if session = other then none else server.sessions[other]? :=
  OrderedMap.getElem?_erase_ite _ _ _

theorem identities_leave (other : Uuid) : (server.leave session).index.identities[other]? =
    if session = other then none else server.index.identities[other]? :=
  OrderedMap.getElem?_erase_ite _ _ _

theorem sessions_connect (pushes : PushQueue) (other : Uuid) :
    (server.connect session pushes).sessions[other]? =
      if session = other then
        some { pushes, disconnect := false, watched := true, authenticated := false }
      else server.sessions[other]? :=
  OrderedMap.getElem?_insert_ite _ _ _ _

theorem sessions_refill (pushes : PushQueue) (other : Uuid) :
    (server.refill session pushes).sessions[other]? =
      if session = other then server.sessions[other]?.map (fun handle => { handle with pushes })
      else server.sessions[other]? := by
  unfold refill
  cases found : server.sessions[session]? with
  | none | some =>
    by_cases same : session = other
    all_goals simp_all [OrderedMap.getElem?_insert_ite]

theorem refill_signals (server : GatewayServer) (session : Uuid) (pushes : PushQueue) :
    Signals (· = session) server (server.refill session pushes) ∧
      ∀ other, (server.refill session pushes).Told other → server.Told other := by
  refine ⟨⟨?_, ?_, ?_, ?_, ?_⟩, ?_⟩
  · unfold refill
    split
    · rfl
    · rfl
  · unfold refill
    split
    · rfl
    · rfl
  · intro other different
    rw [sessions_refill, if_neg (Ne.symm different)]
  · intro other none_
    rw [sessions_refill, none_]
    split
    · rfl
    · rfl
  · intro other handle found
    rw [sessions_refill, found]
    split
    · exact ⟨{ handle with pushes }, rfl, rfl, id⟩
    · exact ⟨handle, rfl, rfl, id⟩
  · rintro other ⟨handle, found, signalled⟩
    rw [sessions_refill] at found
    split at found
    · obtain ⟨before, known, rfl⟩ := map_eq_some_iff.mp found
      exact ⟨before, known, signalled⟩
    · exact ⟨handle, found, signalled⟩

end GatewayServer

namespace ServePhase

open GatewayServer

variable {before after : ServePhase} {session : Uuid} {server : GatewayServer}

theorem settle_open (running : after.Open) :
    before.settle after session server =
      match before.entering after with
      | some identity => server.enter session identity
      | none => server := by
  cases after with
  | closed => exact running.elim
  | _ => rfl

theorem settle_others {other : Uuid} (different : other ≠ session) :
    (before.settle after session server).sessions[other]? = server.sessions[other]? ∧
      (before.settle after session server).index.identities[other]? =
        server.index.identities[other]? := by
  by_cases running : after.Open
  · rw [settle_open running]
    split
    · rw [sessions_enter, identities_enter, if_neg (Ne.symm different), if_neg (Ne.symm different)]
      exact ⟨rfl, rfl⟩
    · exact ⟨rfl, rfl⟩
  · cases after with
    | closed =>
      change (server.leave session).sessions[other]? = _ ∧
        (server.leave session).index.identities[other]? = _
      rw [sessions_leave, identities_leave, if_neg (Ne.symm different), if_neg (Ne.symm different)]
      exact ⟨rfl, rfl⟩
    | _ => exact absurd trivial running

theorem settle_published : (before.settle after session server).published = server.published := by
  unfold settle
  split
  · rfl
  · split
    · rfl
    · rfl

end ServePhase

namespace Cluster

variable {ι : Type} {cluster after : Cluster ι}

def Serves (cluster : Cluster ι) (gateway : ι) (session : Uuid) (connection : Connection ι) :
    Prop :=
  cluster.connections session = some connection ∧ connection.gateway = gateway ∧
    connection.phase.Open

structure Wired (cluster : Cluster ι) : Prop where
  named : ∀ session connection, cluster.connections session = some connection →
    connection.session.id = session ∧ session ≠ 0
  ready : ∀ session connection, cluster.connections session = some connection →
    ServeWorld.Ready connection.session connection.phase
  valid : ∀ session connection identity, cluster.connections session = some connection →
    connection.session.identity = some identity → identity.validate = .ok ()
  listening : ∀ gateway session connection, cluster.Serves gateway session connection →
    ∃ handle, (cluster.servers gateway).sessions[session]? = some handle ∧ handle.watched = true
  indexed : ∀ gateway session connection, cluster.Serves gateway session connection →
    (cluster.servers gateway).index.identities[session]? = connection.session.identity
  absent : ∀ gateway session, (∀ connection, ¬cluster.Serves gateway session connection) →
    (cluster.servers gateway).sessions[session]? = none ∧
      (cluster.servers gateway).index.identities[session]? = none
  logged : ∀ session user, (session, user) ∈ cluster.logins ↔
    ∃ connection identity, cluster.connections session = some connection ∧
      connection.session.identity = some identity ∧ identity.playerKey = user
  distinct : (cluster.logins.map Prod.fst).Nodup

namespace Wired

variable {gateway : ι} {session : Uuid} {connection : Connection ι} {next : ServeWorld}

theorem start (store : MemoryReplayProtectionStore) (clock : Nat) :
    Wired (start store clock : Cluster ι) where
  named := fun _ _ found => by cases found
  ready := fun _ _ found => by cases found
  valid := fun _ _ _ found => by cases found
  listening := fun _ _ _ serves => by cases serves.1
  indexed := fun _ _ _ serves => by cases serves.1
  absent := fun _ _ _ => ⟨ExtTreeMap.getElem?_empty, ExtTreeMap.getElem?_empty⟩
  logged := fun session user => by
    constructor
    · intro member
      exact absurd member List.not_mem_nil
    · rintro ⟨_, _, found, _⟩
      cases found
  distinct := List.nodup_nil

theorem identified_iff (found : cluster.connections session = some connection)
    (user : PlayerKey) :
    (∃ current identity, cluster.connections session = some current ∧
      current.session.identity = some identity ∧ identity.playerKey = user) ↔
      ∃ identity, connection.session.identity = some identity ∧ identity.playerKey = user := by
  simp [found]

theorem connections_write (session other : Uuid) (connection : Connection ι) :
    (cluster.write session connection).connections other =
      if other = session then some connection else cluster.connections other :=
  Function.update_apply _ _ _ _

section

variable (wired : Wired cluster)
include wired

theorem congr (connections : after.connections = cluster.connections)
    (logins : after.logins = cluster.logins)
    (index : ∀ gateway, (after.servers gateway).index = (cluster.servers gateway).index)
    (none_ : ∀ gateway (session : Uuid), (cluster.servers gateway).sessions[session]? = none →
      (after.servers gateway).sessions[session]? = none)
    (kept : ∀ gateway (session : Uuid) handle,
      (cluster.servers gateway).sessions[session]? = some handle →
      ∃ later, (after.servers gateway).sessions[session]? = some later ∧
        later.watched = handle.watched) : Wired after := by
  have serves {gateway : ι} {session : Uuid} {connection : Connection ι} :
      after.Serves gateway session connection ↔ cluster.Serves gateway session connection := by
    simp only [Serves, connections]
  refine ⟨?_, ?_, ?_, ?_, ?_, ?_, ?_, ?_⟩
  · rw [connections]
    exact wired.named
  · rw [connections]
    exact wired.ready
  · rw [connections]
    exact wired.valid
  · intro gateway session connection served
    obtain ⟨handle, found, watched⟩ := wired.listening _ _ _ (serves.mp served)
    obtain ⟨later, known, same⟩ := kept gateway session handle found
    exact ⟨later, known, same.trans watched⟩
  · intro gateway session connection served
    rw [index]
    exact wired.indexed _ _ _ (serves.mp served)
  · intro gateway session unserved
    obtain ⟨gone, unknown⟩ :=
      wired.absent gateway session (fun connection served => unserved connection (serves.mpr served))
    rw [index]
    exact ⟨none_ gateway session gone, unknown⟩
  · rw [connections, logins]
    exact wired.logged
  · rw [logins]
    exact wired.distinct

theorem aside (connections : after.connections = cluster.connections)
    (logins : after.logins = cluster.logins) (servers : after.servers = cluster.servers) :
    Wired after := by
  refine wired.congr connections logins ?_ ?_ ?_
  · intro gateway
    rw [servers]
  · intro gateway session none_
    rw [servers]
    exact none_
  · intro gateway session handle found
    rw [servers]
    exact ⟨handle, found, rfl⟩

theorem not_logged (found : cluster.connections session = some connection)
    (anonymous : connection.session.identity = none) (user : PlayerKey) :
    (session, user) ∉ cluster.logins := by
  rw [wired.logged, identified_iff found, anonymous]
  rintro ⟨_, ⟨⟩, _⟩

/-- Only one connection changes, on one gateway. -/
theorem change (own : Uuid) (new : Connection ι)
    (connections : ∀ other, after.connections other =
      if other = own then some new else cluster.connections other)
    (elsewhere : ∀ gateway (other : Uuid), other ≠ own ∨ gateway ≠ new.gateway →
      (after.servers gateway).sessions[other]? = (cluster.servers gateway).sessions[other]? ∧
        (after.servers gateway).index.identities[other]? =
          (cluster.servers gateway).index.identities[other]?)
    (home : ∀ before, cluster.connections own = some before → before.gateway = new.gateway)
    (named : new.session.id = own ∧ own ≠ 0) (ready : ServeWorld.Ready new.session new.phase)
    (valid : ∀ identity, new.session.identity = some identity → identity.validate = .ok ())
    (listening : new.phase.Open →
      ∃ handle, (after.servers new.gateway).sessions[own]? = some handle ∧ handle.watched = true)
    (indexed : new.phase.Open →
      (after.servers new.gateway).index.identities[own]? = new.session.identity)
    (absent : ¬new.phase.Open → (after.servers new.gateway).sessions[own]? = none ∧
      (after.servers new.gateway).index.identities[own]? = none)
    (others : ∀ other user, other ≠ own →
      ((other, user) ∈ after.logins ↔ (other, user) ∈ cluster.logins))
    (logged : ∀ user, (own, user) ∈ after.logins ↔
      ∃ identity, new.session.identity = some identity ∧ identity.playerKey = user)
    (distinct : (after.logins.map Prod.fst).Nodup) : Wired after := by
  have here : after.connections own = some new := by rw [connections, if_pos rfl]
  have written {other : Uuid} {current : Connection ι}
      (found : after.connections other = some current) :
      other = own ∧ current = new ∨ cluster.connections other = some current := by
    rw [connections] at found
    split at found
    · exact .inl ⟨‹_›, (some.inj found).symm⟩
    · exact .inr found
  have serves {gateway : ι} {other : Uuid} {current : Connection ι} (different : other ≠ own) :
      after.Serves gateway other current ↔ cluster.Serves gateway other current := by
    simp only [Serves, connections, if_neg different]
  refine ⟨?_, ?_, ?_, ?_, ?_, ?_, ?_, distinct⟩
  · intro other current found
    rcases written found with ⟨rfl, rfl⟩ | before
    · exact named
    · exact wired.named other current before
  · intro other current found
    rcases written found with ⟨rfl, rfl⟩ | before
    · exact ready
    · exact wired.ready other current before
  · intro other current identity found
    rcases written found with ⟨rfl, rfl⟩ | before
    · exact valid identity
    · exact wired.valid other current identity before
  · intro gateway other current served
    by_cases same : other = own
    · subst same
      obtain ⟨found, rfl, still⟩ := served
      cases here.symm.trans found
      exact listening still
    · rw [(elsewhere gateway other (.inl same)).1]
      exact wired.listening gateway other current ((serves same).mp served)
  · intro gateway other current served
    by_cases same : other = own
    · subst same
      obtain ⟨found, rfl, still⟩ := served
      cases here.symm.trans found
      exact indexed still
    · rw [(elsewhere gateway other (.inl same)).2]
      exact wired.indexed gateway other current ((serves same).mp served)
  · intro gateway other unserved
    by_cases outside : other ≠ own ∨ gateway ≠ new.gateway
    · rw [(elsewhere gateway other outside).1, (elsewhere gateway other outside).2]
      refine wired.absent gateway other fun current served => ?_
      rcases outside with different | away
      · exact unserved current ((serves different).mpr served)
      · by_cases same : other = own
        · subst same
          exact away (served.2.1.symm.trans (home current served.1))
        · exact unserved current ((serves same).mpr served)
    · obtain ⟨rfl, rfl⟩ : other = own ∧ gateway = new.gateway := by simpa using outside
      exact absent (fun still => unserved new ⟨here, rfl, still⟩)
  · intro other user
    by_cases same : other = own
    · subst same
      rw [logged, identified_iff here]
    · rw [others other user same, wired.logged, connections, if_neg same]

theorem rephase {phase : ServePhase}
    (found : cluster.connections session = some connection) (running : connection.phase.Open)
    (still : phase.Open) (ready : ServeWorld.Ready connection.session phase) :
    Wired (cluster.write session { connection with phase }) := by
  have served : cluster.Serves connection.gateway session connection := ⟨found, rfl, running⟩
  refine wired.change session { connection with phase } (connections_write session · _)
    (fun _ _ _ => ⟨rfl, rfl⟩) ?_ (wired.named session connection found) ready
    (fun identity => wired.valid session connection identity found)
    (fun _ => wired.listening _ _ _ served) (fun _ => wired.indexed _ _ connection served)
    (absurd still) (fun _ _ _ => Iff.rfl)
    (fun user => (wired.logged session user).trans (identified_iff found user)) wired.distinct
  intro before present
  cases found.symm.trans present
  rfl

variable [DecidableEq ι]

theorem onServer {server : GatewayServer}
    (index : server.index = (cluster.servers gateway).index)
    (absent : ∀ session : Uuid, (cluster.servers gateway).sessions[session]? = none →
      server.sessions[session]? = none)
    (kept : ∀ (session : Uuid) handle, (cluster.servers gateway).sessions[session]? = some handle →
      ∃ later, server.sessions[session]? = some later ∧ later.watched = handle.watched) :
    Wired (cluster.onServer gateway server) := by
  have each := cluster.servers_onServer gateway server
  refine wired.congr rfl rfl ?_ ?_ ?_
  · intro other
    rw [each]
    split
    · rename_i same
      rw [same, index]
    · rfl
  · intro other session none_
    rw [each]
    split
    · rename_i same
      exact absent session (same ▸ none_)
    · exact none_
  · intro other session handle found
    rw [each]
    split
    · rename_i same
      exact kept session handle (same ▸ found)
    · exact ⟨handle, found, rfl⟩

theorem signalled {server : GatewayServer} {chosen : Uuid → Prop}
    (signals : GatewayServer.Signals chosen (cluster.servers gateway) server) :
    Wired (cluster.onServer gateway server) := by
  refine wired.onServer signals.index signals.absent ?_
  intro session handle found
  obtain ⟨later, known, watched, _⟩ := signals.kept session handle found
  exact ⟨later, known, watched⟩

theorem announce (gateway : ι) (published : List SessionControlEvent) :
    Wired (cluster.onServer gateway { cluster.servers gateway with published }) :=
  wired.onServer rfl (fun _ none_ => none_) (fun _ handle found => ⟨handle, found, rfl⟩)

end

variable [DecidableEq ι] {contexts : ι → ConnectionContext} {action : Action ι}

theorem connections_settle (session other : Uuid) (connection : Connection ι) (next : ServeWorld) :
    (cluster.settle session connection next).connections other =
      if other = session then
        some { connection with session := next.gateway.session, phase := next.phase }
      else cluster.connections other :=
  Function.update_apply _ _ _ _

theorem servers_settle (session : Uuid) (connection : Connection ι) (next : ServeWorld)
    (gateway : ι) : (cluster.settle session connection next).servers gateway =
      if gateway = connection.gateway then
        connection.phase.settle next.phase session (cluster.servers connection.gateway)
      else cluster.servers gateway :=
  Function.update_apply _ _ _ _

theorem settle_elsewhere (session other : Uuid) (connection : Connection ι) (next : ServeWorld)
    (gateway : ι) (outside : other ≠ session ∨ gateway ≠ connection.gateway) :
    ((cluster.settle session connection next).servers gateway).sessions[other]? =
        (cluster.servers gateway).sessions[other]? ∧
      ((cluster.settle session connection next).servers gateway).index.identities[other]? =
        (cluster.servers gateway).index.identities[other]? := by
  rw [servers_settle]
  split
  · rename_i same
    rw [same]
    exact ServePhase.settle_others (outside.resolve_right (not_not.mpr same))
  · exact ⟨rfl, rfl⟩

theorem settle_own (still : next.phase.Open) :
    ((cluster.settle session connection next).servers connection.gateway).sessions[session]? =
        (match connection.phase.entering next.phase with
        | some _ => (cluster.servers connection.gateway).sessions[session]?.map
            (fun handle => { handle with authenticated := true })
        | none => (cluster.servers connection.gateway).sessions[session]?) ∧
      ((cluster.settle session connection next).servers
          connection.gateway).index.identities[session]? =
        (connection.phase.entering next.phase).or
          (cluster.servers connection.gateway).index.identities[session]? := by
  rw [servers_settle, if_pos rfl, ServePhase.settle_open still]
  cases connection.phase.entering next.phase with
  | none => exact ⟨rfl, rfl⟩
  | some =>
    simp only
    rw [GatewayServer.sessions_enter, GatewayServer.identities_enter, if_pos rfl, if_pos rfl]
    exact ⟨rfl, rfl⟩

theorem logins_settle (session : Uuid) (connection : Connection ι) (next : ServeWorld) :
    (cluster.settle session connection next).logins =
      ((connection.phase.entering next.phase).map
        (fun identity => (session, identity.playerKey))).toList ++ cluster.logins :=
  rfl

section

variable (wired : Wired cluster)
include wired

theorem settle (found : cluster.connections session = some connection)
    (running : connection.phase.Open) (named : next.gateway.session.id = connection.session.id)
    (ready : ServeWorld.Ready next.gateway.session next.phase)
    (identifies : Identifies connection.session next.gateway.session
      (connection.phase.entering next.phase)) : Wired (cluster.settle session connection next) := by
  have served : cluster.Serves connection.gateway session connection := ⟨found, rfl, running⟩
  obtain ⟨handle, present, watched⟩ := wired.listening _ _ _ served
  have known := wired.indexed _ _ _ served
  have logins := @logins_settle _ cluster _ session connection next
  refine wired.change session
    { connection with session := next.gateway.session, phase := next.phase }
    (connections_settle session · connection next)
    (fun gateway other => settle_elsewhere session other connection next gateway) ?_
    ⟨named.trans (wired.named _ _ found).1, (wired.named _ _ found).2⟩ ready ?_ ?_ ?_ ?_ ?_ ?_ ?_
  · intro before was
    cases found.symm.trans was
    rfl
  · intro identity identified
    rcases identifies with ⟨_, same⟩ | ⟨given, _, _, now, valid⟩
    · exact wired.valid session connection identity found (same.symm.trans identified)
    · cases now.symm.trans identified
      exact valid
  · intro still
    rw [(settle_own still).1, present]
    split
    · exact ⟨_, rfl, watched⟩
    · exact ⟨handle, rfl, watched⟩
  · intro still
    rw [(settle_own still).2, known]
    rcases identifies with ⟨entering, same⟩ | ⟨given, entering, _, now, _⟩
    · rw [entering, same]
      rfl
    · rw [entering, now]
      rfl
  · intro closed
    cases ending : next.phase with
    | closed =>
      rw [servers_settle, if_pos rfl, ending]
      change ((cluster.servers connection.gateway).leave session).sessions[session]? = none ∧
        ((cluster.servers connection.gateway).leave session).index.identities[session]? = none
      rw [GatewayServer.sessions_leave, GatewayServer.identities_leave, if_pos rfl, if_pos rfl]
      exact ⟨rfl, rfl⟩
    | _ =>
      rw [ending] at closed
      exact absurd trivial closed
  · intro other user different
    rw [logins]
    rcases identifies with ⟨entering, _⟩ | ⟨given, entering, _⟩
    · rw [entering]
      rfl
    · rw [entering]
      exact List.mem_cons.trans (or_iff_right (fun own => different (congrArg Prod.fst own)))
  · intro user
    rw [logins]
    rcases identifies with ⟨entering, same⟩ | ⟨given, entering, before, now, _⟩
    · rw [entering, same]
      exact (wired.logged session user).trans (identified_iff found user)
    · rw [entering, now]
      refine List.mem_cons.trans ((or_iff_left (wired.not_logged found before user)).trans ?_)
      simp [eq_comm]
  · rw [logins]
    rcases identifies with ⟨entering, _⟩ | ⟨given, entering, before, _⟩
    · rw [entering]
      exact wired.distinct
    · rw [entering]
      refine List.nodup_cons.mpr ⟨?_, wired.distinct⟩
      intro member
      obtain ⟨⟨other, user⟩, logged, same⟩ := List.mem_map.mp member
      cases same
      exact wired.not_logged found before user logged

theorem connect (unused : cluster.connections session = none)
    (named : session ≠ 0) (pushes : PushQueue) :
    Wired (cluster.connect gateway session pushes) := by
  have each (other : ι) : (cluster.connect gateway session pushes).servers other =
      if other = gateway then (cluster.servers gateway).connect session pushes
      else cluster.servers other := Function.update_apply _ _ _ _
  have here := each gateway
  rw [if_pos rfl] at here
  have absent := wired.absent gateway session (fun connection served => by
    cases unused.symm.trans served.1)
  refine wired.change session (.new gateway session) (fun _ => Function.update_apply _ _ _ _) ?_
    (fun _ found => by cases unused.symm.trans found) ⟨rfl, named⟩ (.idle trivial (fun _ _ => rfl))
    (fun _ known => by cases known) ?_ ?_ (absurd trivial) (fun _ _ _ => Iff.rfl) ?_ wired.distinct
  · intro server other outside
    rw [each]
    split
    · rename_i same
      subst same
      rw [GatewayServer.sessions_connect,
        if_neg (Ne.symm (outside.resolve_right (not_not.mpr rfl)))]
      exact ⟨rfl, rfl⟩
    · exact ⟨rfl, rfl⟩
  · intro _
    change ∃ handle, ((cluster.connect gateway session pushes).servers gateway).sessions[session]? =
      some handle ∧ _
    rw [here, GatewayServer.sessions_connect, if_pos rfl]
    exact ⟨_, rfl, rfl⟩
  · intro _
    change ((cluster.connect gateway session pushes).servers gateway).index.identities[session]? = _
    rw [here]
    exact absent.2
  · intro user
    refine (wired.logged session user).trans ⟨?_, ?_⟩
    · rintro ⟨_, _, found, _⟩
      cases unused.symm.trans found
    · rintro ⟨_, ⟨⟩, _⟩

theorem step (taken : Step contexts cluster action after) :
    Wired after := by
  cases taken with
  | elapse =>
    exact wired.aside rfl rfl rfl
  | refill _ session pushes =>
    exact wired.signalled (GatewayServer.refill_signals _ session pushes).1
  | connect _ _ pushes unused named => exact wired.connect unused named pushes
  | serve session connection _ _ found own _ _ step =>
    obtain ⟨running, named, ready, identifies⟩ :=
      step.ready own (wired.ready session connection found)
    exact wired.settle found running named ready identifies
  | publish session connection claims _ sent found busy =>
    have announced := wired.announce connection.gateway
      ((if sent then [GatewayServer.loginEvent claims.identity session] else []) ++
        (cluster.servers connection.gateway).published)
    have ready := wired.ready session connection found
    refine announced.rephase found (by rw [busy]; trivial) trivial ⟨?_, fun _ => ?_⟩
    · rintro stage ⟨⟩
      exact ⟨trivial, (ready.stage _ busy).2⟩
    · exact ready.anonymous (by rw [busy]; trivial)
  | kick session connection claims previous sent traceId _ found busy =>
    have kicked := wired.signalled ((contexts connection.gateway).kickPrevious_signals previous
      claims.identity traceId sent (cluster.servers connection.gateway, cluster.pushes))
    have ready := wired.ready session connection found
    refine rephase (kicked.aside ?_ ?_ ?_) found (by rw [busy]; trivial) ?_ ⟨?_, fun _ => ?_⟩
    · rfl
    · rfl
    · rfl
    · trivial
    · rintro stage ⟨⟩
      exact ⟨trivial, trivial⟩
    · exact ready.anonymous (by rw [busy]; trivial)
  | handleEvent _ order event =>
    exact (wired.signalled (GatewayServer.handle_signals order event _)).aside rfl rfl rfl
  | deliverPush _ _ text _ _ _ kicks =>
    exact (wired.signalled (GatewayServer.deliverInner_signals text kicks _)).aside rfl rfl rfl

end

end Wired

end Cluster

end Elura
