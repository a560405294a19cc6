import Elura.Gateway.ClusterWired

/-!
What one step of a cluster can do to a session. A session is told to disconnect, it
leaves and it logs in; none of this is ever taken back. A login carries the sessions
it has displaced until it has told them.
-/

namespace Elura

open GatewayServer

def HandleStage.carries : HandleStage → Option (TicketClaims × List Uuid)
  | .acquired claims (.ok previous) | .consuming claims previous | .publishing claims previous
  | .kicking claims previous => some (claims, previous)
  | _ => none

def ServePhase.carries : ServePhase → Option (TicketClaims × List Uuid)
  | .handling stage => stage.carries
  | _ => none

theorem HandleStep.carries {context : ConnectionContext} {now : Nat} {gateway after : Gateway}
    {stage next : HandleStage} {claims : TicketClaims} {previous : List Uuid}
    (step : HandleStep context now gateway stage after next)
    (carried : next.carries = some (claims, previous)) :
    stage.carries = some (claims, previous) ∨
      stage = .acquiring claims ∧ next = .acquired claims (.ok previous) ∧
        ∃ leaseAt, ((context.admitOnline gateway.session.id claims.identity leaseAt now).call
          gateway.directory).1 = .ok previous := by
  cases step with
  | checkAdmission _ answer | checkVersion _ answer => cases answer <;> cases carried
  | acquire asking leaseAt =>
    rcases answered : ((context.admitOnline gateway.session.id asking.identity leaseAt now).call
      gateway.directory).1 with error | reported
    · rw [answered] at carried
      cases carried
    · rw [answered] at carried
      cases carried
      exact .inr ⟨rfl, rfl, leaseAt, answered⟩
  | consume consuming =>
    rcases used : consuming.consume gateway.store (Duration.asSecs now) with
      ⟨error | consumed, store⟩
    · rw [used] at carried
      cases carried
    · obtain rfl := TicketClaims.consume_ok used
      rw [used] at carried
      simp only [ConnectionContext.afterConsume] at carried
      cases known : gateway.session.authenticate consumed.identity with
      | error =>
        rw [known] at carried
        cases carried
      | ok =>
        rw [known] at carried
        exact .inl carried
  | accepted | publish => exact .inl carried
  | refuse | verify | rejected | remove | refuseReconnect | verifyReconnect | replayedReconnect
  | dispatch | kick | reconnect => cases carried

namespace ServeWorld

variable {context : ConnectionContext} {world after : ServeWorld} {action : Action}

theorem leave_phase (world : ServeWorld) : ¬world.leave.phase.Running ∧
    world.leave.phase.carries = none := by
  unfold leave
  split
  · exact ⟨id, rfl⟩
  · exact ⟨id, rfl⟩

section

variable (step : Step context world action after)
include step

theorem Step.running (own : action.Own) :
    (after.phase.Running → world.phase.Running) ∧
      (world.phase.Running → after.phase.Running ∨ action = .leave ∨ action = .disconnect) := by
  cases step with
  | elapse | foreign => exact own.elim
  | authenticate _ here | reconnect _ here | dispatch here | progress _ _ _ here | answer _ here
  | cancel _ here =>
    rw [here]
    exact ⟨fun _ => trivial, fun _ => .inl trivial⟩
  | renew _ _ _ _ idle =>
    rw [idle]
    exact ⟨id, fun running => .inl running⟩
  | disconnect =>
    exact ⟨fun still => absurd still (leave_phase world).1, fun _ => .inr (.inr rfl)⟩
  | leave =>
    exact ⟨fun still => absurd still (leave_phase world).1, fun _ => .inr (.inl rfl)⟩
  | cleanup _ ending | cutOff _ ending =>
    exact ⟨fun impossible => impossible.elim, by rw [ending]; exact nofun⟩

theorem Step.carries {claims : TicketClaims} {previous : List Uuid} (own : action.Own)
    (carried : after.phase.carries = some (claims, previous)) :
    world.phase.carries = some (claims, previous) ∨
      world.phase = .handling (.acquiring claims) ∧
        after.phase = .handling (.acquired claims (.ok previous)) ∧ action = .progress ∧
        ∃ leaseAt, ((context.admitOnline world.gateway.session.id claims.identity leaseAt
          world.clock).call world.gateway.directory).1 = .ok previous := by
  cases step with
  | elapse | foreign => exact own.elim
  | authenticate | reconnect | dispatch | answer | cancel | cleanup | cutOff => cases carried
  | renew => exact .inl carried
  | disconnect | leave =>
    rw [(leave_phase world).2] at carried
    cases carried
  | progress _ _ _ busy step =>
    rw [busy]
    rcases step.carries carried with same | ⟨rfl, rfl, reported⟩
    · exact .inl same
    · exact .inr ⟨rfl, rfl, rfl, reported⟩

theorem Step.entering {identity : Identity}
    (entering : world.phase.entering after.phase = some identity) :
    action = .progress ∧ ∃ claims previous, world.phase = .handling (.consuming claims previous) ∧
      after.phase = .handling (.publishing claims previous) ∧ identity = claims.identity := by
  unfold ServePhase.entering at entering
  split at entering <;> cases entering
  rename_i claims previous entered reported before now
  cases step with
  | elapse | foreign => cases before.symm.trans now
  | authenticate | reconnect | dispatch | answer | cancel | cleanup | cutOff => cases now
  | renew _ _ _ _ idle => cases idle.symm.trans now
  | disconnect =>
    refine absurd ?_ (leave_phase world).1
    rw [now]
    trivial
  | leave idle => cases before.symm.trans idle
  | progress _ _ _ busy step =>
    cases before.symm.trans busy
    have carried := @HandleStep.carries _ _ _ _ _ _ entered reported step (by cases now; rfl)
    rcases carried with same | ⟨impossible, _⟩
    · cases same
      exact ⟨rfl, claims, previous, before, now, rfl⟩
    · cases impossible

end

end ServeWorld

structure Connection.Continues {ι : Type} (before after : Connection ι) : Prop where
  gateway : after.gateway = before.gateway
  session : after.session = before.session
  running : after.phase.Running ↔ before.phase.Running

namespace Cluster

section States

variable {ι : Type} (cluster : Cluster ι) (session : Uuid)

def Told : Prop :=
  ∃ connection, cluster.connections session = some connection ∧
    (cluster.servers connection.gateway).Told session

def Gone : Prop :=
  ∃ connection, cluster.connections session = some connection ∧ ¬connection.phase.Running

def Connected : Prop :=
  ∃ connection, cluster.connections session = some connection ∧ connection.phase.Running ∧
    ¬(cluster.servers connection.gateway).Told session

def Signalled (contexts : ι → ConnectionContext) : Action ι → Prop
  | .handleEvent gateway _ event => (cluster.servers gateway).Concerned event session
  | .kick other _ => ∃ connection claims previous, cluster.connections other = some connection ∧
      connection.phase = .handling (.kicking claims previous) ∧ session ∈ previous ∧
      (contexts connection.gateway).online.any (·.duplicateLogin = .kickExisting)
  | .deliverPush _ _ request => request ∈ cluster.pushes ∧ request.target = .disconnect session
  | _ => False

structure Aside (chosen : Uuid → Prop) (before after : Cluster ι) : Prop where
  kept : ∀ session connection, before.connections session = some connection →
    ∃ later, after.connections session = some later ∧ connection.Continues later
  known : ∀ session later, after.connections session = some later →
    ∃ connection, before.connections session = some connection ∧ connection.Continues later
  told : ∀ gateway session, (before.servers gateway).Told session →
    (after.servers gateway).Told session
  signalled : ∀ gateway session, (after.servers gateway).Told session →
    (before.servers gateway).Told session ∨ chosen session
  logins : after.logins = before.logins

end States

variable {ι : Type} {contexts : ι → ConnectionContext} {cluster after : Cluster ι}
  {action : Action ι} {session : Uuid}

namespace Aside

variable {chosen : Uuid → Prop} {before middle : Cluster ι}

theorem same (connections : after.connections = before.connections)
    (servers : after.servers = before.servers) (logins : after.logins = before.logins) :
    Aside chosen before after where
  kept := fun _ connection found =>
    ⟨connection, by rw [connections, found], rfl, rfl, Iff.rfl⟩
  known := fun _ connection found =>
    ⟨connection, by rw [← connections, found], rfl, rfl, Iff.rfl⟩
  told := fun _ _ told => by rwa [servers]
  signalled := fun _ _ told => .inl (by rwa [servers] at told)
  logins := logins

theorem trans (first : Aside chosen before middle) (second : Aside chosen middle after) :
    Aside chosen before after where
  kept := fun session connection found => by
    obtain ⟨between, present, moved⟩ := first.kept session connection found
    obtain ⟨later, written, next⟩ := second.kept session between present
    exact ⟨later, written, next.gateway.trans moved.gateway, next.session.trans moved.session,
      next.running.trans moved.running⟩
  known := fun session later found => by
    obtain ⟨between, present, next⟩ := second.known session later found
    obtain ⟨connection, written, moved⟩ := first.known session between present
    exact ⟨connection, written, next.gateway.trans moved.gateway, next.session.trans moved.session,
      next.running.trans moved.running⟩
  told := fun gateway session told => second.told gateway session (first.told gateway session told)
  signalled := fun gateway session told =>
    (second.signalled gateway session told).elim (first.signalled gateway session) .inr
  logins := second.logins.trans first.logins

theorem onServer [DecidableEq ι] {gateway : ι} {server : GatewayServer}
    (told : ∀ session, (cluster.servers gateway).Told session → server.Told session)
    (signalled : ∀ session, server.Told session →
      (cluster.servers gateway).Told session ∨ chosen session) :
    Aside chosen cluster (cluster.onServer gateway server) := by
  have each := cluster.servers_onServer gateway server
  refine ⟨fun _ connection found => ⟨connection, found, rfl, rfl, Iff.rfl⟩,
    fun _ connection found => ⟨connection, found, rfl, rfl, Iff.rfl⟩, ?_, ?_, rfl⟩
  · intro other session was
    rw [each]
    split
    · rename_i same
      exact told session (same ▸ was)
    · exact was
  · intro other session now
    rw [each] at now
    split at now
    · rename_i same
      exact same ▸ signalled session now
    · exact .inl now

theorem signals [DecidableEq ι] {gateway : ι} {server : GatewayServer} {among : Uuid → Prop}
    (signals : GatewayServer.Signals among (cluster.servers gateway) server)
    (weaker : ∀ session, among session → chosen session) :
    Aside chosen cluster (cluster.onServer gateway server) :=
  onServer (fun _ => signals.told)
    (fun session now => (signals.told_cases now).imp_right (weaker session))

theorem rephase {connection : Connection ι} {phase : ServePhase}
    (found : cluster.connections session = some connection) (running : connection.phase.Running)
    (still : phase.Running) :
    Aside chosen cluster (cluster.write session { connection with phase }) := by
  have continues : connection.Continues { connection with phase } :=
    ⟨rfl, rfl, iff_of_true still running⟩
  refine ⟨?_, ?_, fun _ _ => id, fun _ _ => .inl, rfl⟩
  · intro other current present
    rw [Wired.connections_write]
    split
    · rename_i same
      subst same
      cases found.symm.trans present
      exact ⟨_, rfl, continues⟩
    · exact ⟨current, present, rfl, rfl, Iff.rfl⟩
  · intro other later present
    rw [Wired.connections_write] at present
    split at present
    · rename_i same
      subst same
      cases present
      exact ⟨connection, found, continues⟩
    · exact ⟨later, present, rfl, rfl, Iff.rfl⟩

theorem gone (aside : Aside chosen cluster after) : after.Gone session ↔ cluster.Gone session := by
  constructor
  · rintro ⟨later, found, ended⟩
    obtain ⟨connection, present, continues⟩ := aside.known session later found
    exact ⟨connection, present, mt continues.running.mpr ended⟩
  · rintro ⟨connection, found, ended⟩
    obtain ⟨later, present, continues⟩ := aside.kept session connection found
    exact ⟨later, present, mt continues.running.mp ended⟩

theorem still_told (aside : Aside chosen cluster after) (told : cluster.Told session) :
    after.Told session := by
  obtain ⟨connection, found, signalled⟩ := told
  obtain ⟨later, present, continues⟩ := aside.kept session connection found
  refine ⟨later, present, ?_⟩
  rw [continues.gateway]
  exact aside.told connection.gateway session signalled

theorem told_cases (aside : Aside chosen cluster after) (told : after.Told session) :
    cluster.Told session ∨ chosen session := by
  obtain ⟨later, found, signalled⟩ := told
  obtain ⟨connection, present, continues⟩ := aside.known session later found
  rw [continues.gateway] at signalled
  exact (aside.signalled _ session signalled).imp_left (fun was => ⟨connection, present, was⟩)

end Aside

variable [DecidableEq ι]

/-- A session connects, one takes a step of its own, or messages are sent and
received. -/
theorem Step.shape (taken : Step contexts cluster action after) :
    Aside (cluster.Signalled · contexts action) cluster after ∨
      (∃ gateway session pushes, cluster.connections session = none ∧
        after = cluster.connect gateway session pushes) ∨
      ∃ session connection own next, action = .serve session own ∧
        cluster.connections session = some connection ∧ own.Own ∧
        (own = .disconnect → (cluster.servers connection.gateway).Told session) ∧
        ServeWorld.Step (contexts connection.gateway) (cluster.view connection) own next ∧
        after = cluster.settle session connection next := by
  cases taken with
  | elapse => exact .inl (.same rfl rfl rfl)
  | refill _ session pushes =>
    refine .inl (.onServer ?_ ?_)
    · exact fun _ => (refill_signals _ session pushes).1.told
    · exact fun other now => .inl ((refill_signals _ session pushes).2 other now)
  | connect gateway session pushes unused =>
    exact .inr (.inl ⟨gateway, session, pushes, unused, rfl⟩)
  | serve session connection own next found mine _ told step =>
    exact .inr (.inr ⟨session, connection, own, next, rfl, found, mine, told, step, rfl⟩)
  | publish _ _ _ _ _ found busy =>
    refine .inl (.trans (.onServer ?_ ?_) (.rephase found ?_ ?_))
    · exact fun _ => id
    · exact fun _ => .inl
    · rw [busy]
      trivial
    · trivial
  | kick session connection claims previous sent traceId _ found busy =>
    have told : Aside (cluster.Signalled · contexts (.kick session sent)) cluster
        (cluster.onServer connection.gateway
          ((contexts connection.gateway).kickPrevious previous claims.identity traceId sent
            (cluster.servers connection.gateway, cluster.pushes)).1) := by
      by_cases silent : previous = [] ∨
          ¬(contexts connection.gateway).online.any (·.duplicateLogin = .kickExisting)
      · unfold ConnectionContext.kickPrevious
        rw [if_pos silent]
        exact .onServer (fun _ => id) (fun _ => .inl)
      · refine .signals ((contexts connection.gateway).kickPrevious_signals previous
          claims.identity traceId sent (cluster.servers connection.gateway, cluster.pushes)) ?_
        intro other member
        exact ⟨connection, claims, previous, found, busy, member, not_not.mp (not_or.mp silent).2⟩
    refine .inl ((told.trans (.same ?_ ?_ ?_)).trans (.rephase found ?_ ?_))
    · rfl
    · rfl
    · rfl
    · rw [busy]
      trivial
    · trivial
  | handleEvent _ order event =>
    refine .inl (.trans (.signals (handle_signals order event _) ?_)
      (.same rfl rfl rfl))
    exact fun _ concerned => concerned
  | deliverPush _ _ text _ _ published kicks =>
    refine .inl (.trans (.signals (deliverInner_signals text kicks _) ?_)
      (.same rfl rfl rfl))
    rintro _ rfl
    exact ⟨published, kicks⟩

theorem told_of_sessions {before after : GatewayServer}
    (same : after.sessions[session]? = before.sessions[session]?) :
    after.Told session ↔ before.Told session := by
  simp only [GatewayServer.Told, same]

section Connect

variable {gateway : ι} {pushes : PushQueue}

theorem connections_connect (session other : Uuid) :
    (cluster.connect gateway session pushes).connections other =
      if other = session then some (.new gateway session) else cluster.connections other :=
  Function.update_apply _ _ _ _

theorem sessions_connect (session : Uuid) (other : Uuid) (server : ι) :
    ((cluster.connect gateway session pushes).servers server).sessions[other]? =
      if session = other ∧ server = gateway then
        some { pushes, disconnect := false, watched := true, authenticated := false }
      else (cluster.servers server).sessions[other]? := by
  have each : (cluster.connect gateway session pushes).servers server =
      if server = gateway then (cluster.servers gateway).connect session pushes
      else cluster.servers server := Function.update_apply _ _ _ _
  rw [each]
  by_cases here : server = gateway
  · subst here
    rw [if_pos rfl, sessions_connect]
    simp
  · rw [if_neg here, if_neg (fun both => here both.2)]

theorem connect_others {other : Uuid} {connection : Connection ι}
    (unused : cluster.connections session = none)
    (found : cluster.connections other = some connection) :
    (cluster.connect gateway session pushes).connections other = some connection ∧
      (((cluster.connect gateway session pushes).servers connection.gateway).Told other ↔
        (cluster.servers connection.gateway).Told other) := by
  have different : other ≠ session := by
    rintro rfl
    rw [unused] at found
    cases found
  refine ⟨by rw [connections_connect, if_neg different, found], told_of_sessions ?_⟩
  rw [sessions_connect, if_neg (fun both => different both.1.symm)]

theorem connect_new {other : Uuid} {connection : Connection ι}
    (found : (cluster.connect gateway session pushes).connections other = some connection) :
    cluster.connections other = some connection ∨
      other = session ∧ connection = .new gateway session ∧
        ¬((cluster.connect gateway session pushes).servers connection.gateway).Told other := by
  rw [connections_connect] at found
  split at found
  · rename_i same
    subst same
    cases found
    refine .inr ⟨rfl, rfl, ?_⟩
    rintro ⟨handle, present, signalled⟩
    rw [sessions_connect, if_pos ⟨rfl, rfl⟩] at present
    cases present
    cases signalled
  · exact .inl found

end Connect

section Settle

variable {connection : Connection ι} {next : ServeWorld}

theorem told_settle_others {other : Uuid} (different : other ≠ session) (gateway : ι) :
    ((cluster.settle session connection next).servers gateway).Told other ↔
      (cluster.servers gateway).Told other :=
  told_of_sessions
    (Wired.settle_elsewhere session other connection next gateway (.inl different)).1

theorem told_settle_own (still : next.phase.Open) :
    ((cluster.settle session connection next).servers connection.gateway).Told session ↔
      (cluster.servers connection.gateway).Told session := by
  unfold GatewayServer.Told
  rw [(Wired.settle_own still).1]
  split
  · simp
  · rfl

theorem not_told_closed (closed : next.phase = .closed) :
    ¬((cluster.settle session connection next).servers connection.gateway).Told session := by
  rintro ⟨handle, found, _⟩
  rw [Wired.servers_settle, if_pos rfl, closed] at found
  change ((cluster.servers connection.gateway).leave session).sessions[session]? = _ at found
  rw [sessions_leave, if_pos rfl] at found
  cases found

theorem settle_found {other : Uuid} {current : Connection ι}
    (found : (cluster.settle session connection next).connections other = some current) :
    other = session ∧ current =
        { connection with session := next.gateway.session, phase := next.phase } ∨
      other ≠ session ∧ cluster.connections other = some current := by
  rw [Wired.connections_settle] at found
  split at found
  · rename_i same
    exact .inl ⟨same, (Option.some.inj found).symm⟩
  · rename_i different
    exact .inr ⟨different, found⟩

theorem settle_self : (cluster.settle session connection next).connections session =
    some { connection with session := next.gateway.session, phase := next.phase } := by
  rw [Wired.connections_settle, if_pos rfl]

theorem settle_other {other : Uuid} (different : other ≠ session) :
    (cluster.settle session connection next).connections other = cluster.connections other := by
  rw [Wired.connections_settle, if_neg different]

end Settle

section

variable (taken : Step contexts cluster action after)
include taken

theorem Step.gone (gone : cluster.Gone session) :
    after.Gone session := by
  rcases taken.shape with aside | ⟨gateway, other, pushes, unused, rfl⟩ |
    ⟨other, connection, own, next, _, found, mine, _, step, rfl⟩
  · exact aside.gone.mpr gone
  · obtain ⟨current, present, ended⟩ := gone
    exact ⟨current, (connect_others unused present).1, ended⟩
  · obtain ⟨current, present, ended⟩ := gone
    by_cases same : session = other
    · subst same
      cases found.symm.trans present
      exact ⟨_, settle_self, mt (step.running mine).1 ended⟩
    · exact ⟨current, by rw [settle_other same, present], ended⟩

theorem Step.told (told : cluster.Told session) :
    after.Told session ∨ after.Gone session := by
  rcases taken.shape with aside | ⟨gateway, other, pushes, unused, rfl⟩ |
    ⟨other, connection, own, next, _, found, mine, _, step, rfl⟩
  · exact .inl (aside.still_told told)
  · obtain ⟨current, present, signalled⟩ := told
    obtain ⟨kept, same⟩ := @connect_others _ _ _ _ gateway pushes _ _ unused present
    exact .inl ⟨current, kept, same.mpr signalled⟩
  · obtain ⟨current, present, signalled⟩ := told
    by_cases same : session = other
    · subst same
      cases found.symm.trans present
      by_cases still : next.phase.Open
      · exact .inl ⟨_, settle_self, (told_settle_own still).mpr signalled⟩
      · exact .inr ⟨_, settle_self, ServePhase.not_running still⟩
    · exact .inl ⟨current, by rw [settle_other same, present],
        (told_settle_others same _).mpr signalled⟩

theorem Step.told_cases (told : after.Told session) :
    cluster.Told session ∨ cluster.Signalled session contexts action := by
  rcases taken.shape with aside | ⟨gateway, other, pushes, unused, rfl⟩ |
    ⟨other, connection, own, next, _, found, mine, _, step, rfl⟩
  · exact aside.told_cases told
  · obtain ⟨current, present, signalled⟩ := told
    rcases connect_new present with old | ⟨_, _, silent⟩
    · exact .inl ⟨current, old, (connect_others unused old).2.mp signalled⟩
    · exact absurd signalled silent
  · obtain ⟨current, present, signalled⟩ := told
    rcases settle_found present with ⟨rfl, rfl⟩ | ⟨different, old⟩
    · cases ending : next.phase with
      | closed => exact absurd signalled (not_told_closed ending)
      | _ =>
        exact .inl ⟨connection, found, (told_settle_own (by rw [ending]; trivial)).mp signalled⟩
    · exact .inl ⟨current, old, (told_settle_others different _).mp signalled⟩

theorem Step.gone_cases (gone : after.Gone session) :
    cluster.Gone session ∨ action = .serve session .leave ∨ cluster.Told session := by
  rcases taken.shape with aside | ⟨gateway, other, pushes, unused, rfl⟩ |
    ⟨other, connection, own, next, rfl, found, mine, told, step, rfl⟩
  · exact .inl (aside.gone.mp gone)
  · obtain ⟨current, present, ended⟩ := gone
    rcases connect_new present with old | ⟨_, rfl, _⟩
    · exact .inl ⟨current, old, ended⟩
    · exact absurd trivial ended
  · obtain ⟨current, present, ended⟩ := gone
    rcases settle_found present with ⟨rfl, rfl⟩ | ⟨_, old⟩
    · by_cases running : connection.phase.Running
      · rcases (step.running mine).2 running with still | rfl | rfl
        · exact absurd still ended
        · exact .inr (.inl rfl)
        · exact .inr (.inr ⟨connection, found, told rfl⟩)
      · exact .inl ⟨connection, found, running⟩
    · exact .inl ⟨current, old, ended⟩

theorem Step.kept {connection : Connection ι}
    (found : cluster.connections session = some connection) :
    ∃ later, after.connections session = some later ∧ later.gateway = connection.gateway := by
  rcases taken.shape with aside | ⟨gateway, other, pushes, unused, rfl⟩ |
    ⟨other, current, own, next, rfl, present, mine, told, step, rfl⟩
  · obtain ⟨later, known, continues⟩ := aside.kept session connection found
    exact ⟨later, known, continues.gateway⟩
  · exact ⟨connection, (connect_others unused found).1, rfl⟩
  · by_cases same : session = other
    · subst same
      cases found.symm.trans present
      exact ⟨_, settle_self, rfl⟩
    · exact ⟨connection, by rw [settle_other same, found], rfl⟩

theorem Step.logins :
    after.logins = cluster.logins ∨ ∃ own connection claims previous,
      action = .serve own .progress ∧ cluster.connections own = some connection ∧
      connection.phase = .handling (.consuming claims previous) ∧
      after.logins = (own, claims.identity.playerKey) :: cluster.logins := by
  rcases taken.shape with aside | ⟨gateway, other, pushes, unused, rfl⟩ |
    ⟨other, connection, own, next, rfl, found, mine, told, step, rfl⟩
  · exact .inl aside.logins
  · exact .inl rfl
  · rw [Wired.logins_settle]
    cases entering : connection.phase.entering next.phase with
    | none => exact .inl rfl
    | some =>
      obtain ⟨rfl, claims, previous, busy, _, rfl⟩ := step.entering entering
      exact .inr ⟨other, connection, claims, previous, rfl, found, busy, rfl⟩

end

theorem published_onServer {gateway : ι} {server : GatewayServer} {event : SessionControlEvent}
    (published : (cluster.onServer gateway server).Published event) :
    cluster.Published event ∨ event ∈ server.published := by
  obtain ⟨other, member⟩ := published
  rw [servers_onServer] at member
  split at member
  · exact .inr member
  · exact .inl ⟨other, member⟩

section

variable (taken : Step contexts cluster action after)
include taken

/-- The events of a cluster are those of its logins. -/
theorem Step.published {event : SessionControlEvent}
    (published : after.Published event) :
    cluster.Published event ∨ ∃ own connection claims previous,
      cluster.connections own = some connection ∧
      connection.phase = .handling (.publishing claims previous) ∧
      event = GatewayServer.loginEvent claims.identity own := by
  have quiet {gateway : ι} {server : GatewayServer}
      (same : server.published = (cluster.servers gateway).published)
      (published : (cluster.onServer gateway server).Published event) :
      cluster.Published event := by
    rcases published_onServer published with old | member
    · exact old
    · rw [same] at member
      exact ⟨gateway, member⟩
  cases taken with
  | elapse => exact .inl published
  | refill _ session pushes =>
    exact .inl (quiet (refill_signals _ session pushes).1.published published)
  | connect gateway session pushes =>
    have same : ((cluster.servers gateway).connect session pushes).published =
      (cluster.servers gateway).published := rfl
    exact .inl (quiet same published)
  | serve =>
    exact .inl (quiet ServePhase.settle_published published)
  | publish session connection claims previous sent found busy =>
    rcases published_onServer published with old | member
    · exact .inl old
    · rcases List.mem_append.mp member with new | old
      · cases sent with
        | false => exact absurd new List.not_mem_nil
        | true =>
          exact .inr ⟨session, connection, claims, previous, found, busy,
            List.mem_singleton.mp new⟩
      · exact .inl ⟨connection.gateway, old⟩
  | kick _ connection claims previous sent traceId =>
    exact .inl (quiet ((contexts connection.gateway).kickPrevious_signals previous
      claims.identity traceId sent
      (cluster.servers connection.gateway, cluster.pushes)).published published)
  | handleEvent _ order event =>
    exact .inl (quiet (handle_signals order event _).published published)
  | deliverPush _ _ text _ _ _ kicks =>
    exact .inl (quiet (deliverInner_signals text kicks _).published published)

theorem Step.carries {own : Uuid}
    {later : Connection ι} {claims : TicketClaims} {previous : List Uuid}
    (found : after.connections own = some later)
    (carried : later.phase.carries = some (claims, previous)) :
    ∃ connection, cluster.connections own = some connection ∧
      connection.gateway = later.gateway ∧
      (connection.phase.carries = some (claims, previous) ∨
        action = .serve own .progress ∧ connection.phase = .handling (.acquiring claims) ∧
          later.phase = .handling (.acquired claims (.ok previous)) ∧
          ∃ leaseAt, (((contexts connection.gateway).admitOnline connection.session.id
            claims.identity leaseAt cluster.clock).call cluster.directory).1 = .ok previous) := by
  have written {other : Uuid} {middle : Cluster ι} {connection : Connection ι}
      (present : cluster.connections other = some connection)
      (unmoved : middle.connections = cluster.connections) {phase : ServePhase}
      (same : phase.carries = connection.phase.carries ∨ phase.carries = none)
      (found : (middle.write other { connection with phase }).connections own = some later) :
      ∃ connection, cluster.connections own = some connection ∧
        connection.gateway = later.gateway ∧
        connection.phase.carries = some (claims, previous) := by
    rw [Wired.connections_write] at found
    split at found
    · rename_i self
      subst self
      cases found
      rcases same with kept | dropped
      · exact ⟨connection, present, rfl, kept.symm.trans carried⟩
      · cases dropped.symm.trans carried
    · exact ⟨later, unmoved ▸ found, rfl, carried⟩
  cases taken with
  | connect =>
    rcases connect_new found with old | ⟨_, rfl, _⟩
    · exact ⟨later, old, rfl, .inl carried⟩
    · cases carried
  | serve _ connection _ _ present mine _ _ step =>
    rcases settle_found found with ⟨rfl, rfl⟩ | ⟨_, old⟩
    · refine ⟨connection, present, rfl, (step.carries mine carried).imp_right ?_⟩
      rintro ⟨asking, answered, rfl, reported⟩
      exact ⟨rfl, asking, answered, reported⟩
    · exact ⟨later, old, rfl, .inl carried⟩
  | publish _ _ _ _ _ present busy =>
    obtain ⟨before, known, here, same⟩ := written present rfl (.inl (by rw [busy]; rfl)) found
    exact ⟨before, known, here, .inl same⟩
  | kick _ _ _ _ _ _ _ present =>
    obtain ⟨before, known, here, same⟩ := written present rfl (.inr rfl) found
    exact ⟨before, known, here, .inl same⟩
  | elapse | refill | handleEvent | deliverPush => exact ⟨later, found, rfl, .inl carried⟩

theorem Step.pushes {request : PushRequest}
    (member : request ∈ after.pushes) :
    request ∈ cluster.pushes ∨ ∃ own connection claims previous session traceId,
      cluster.connections own = some connection ∧
      connection.phase = .handling (.kicking claims previous) ∧ session ∈ previous ∧
      (contexts connection.gateway).online.any (·.duplicateLogin = .kickExisting) ∧
      traceId.utf8ByteSize ≤ 128 ∧
      request = GatewayServer.kickRequest claims.identity traceId session := by
  cases taken with
  | kick session connection claims previous sent traceId reconnectId found busy short =>
    change request ∈ ((contexts connection.gateway).kickPrevious previous claims.identity traceId
      sent (cluster.servers connection.gateway, cluster.pushes)).2 at member
    unfold ConnectionContext.kickPrevious at member
    split at member
    · exact .inl member
    · rename_i kicks
      rcases kickEach_pushes_cases member with old | ⟨other, among, rfl⟩
      · exact .inl old
      · exact .inr ⟨session, connection, claims, previous, other, traceId, found, busy, among,
          not_not.mp (not_or.mp kicks).2, short, rfl⟩
  | elapse | refill | connect | serve | publish | handleEvent | deliverPush => exact .inl member

theorem Step.handled {own : Uuid} {gateway : ι}
    (member : (own, gateway) ∈ after.handled) :
    (own, gateway) ∈ cluster.handled ∨ ∃ order event, action = .handleEvent gateway order event ∧
      cluster.Published event ∧ event.keepSessionId = some own ∧
      after.servers gateway =
        ((GatewayServer.handle order event).call (cluster.servers gateway)).2 := by
  cases taken with
  | handleEvent _ order event published =>
    rcases List.mem_append.mp member with new | old
    · obtain ⟨kept, present, same⟩ := List.mem_map.mp new
      cases same
      exact .inr ⟨order, event, rfl, published, Option.mem_toList.mp present,
        Function.update_self _ _ _⟩
    · exact .inl old
  | elapse | refill | connect | serve | publish | kick | deliverPush => exact .inl member

end

end Cluster

end Elura
