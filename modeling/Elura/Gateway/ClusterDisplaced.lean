import Elura.Gateway.ClusterLogin
import Elura.Gateway.PresencePurge

/-!
What becomes of a session that another login has displaced from the directory: only that login
tells it to disconnect, at its very end.
-/

namespace Elura

namespace MemoryOnlineDirectory

variable {directory : MemoryOnlineDirectory} {user : PlayerKey} {session : Uuid}

theorem single_unregister_cases {lease : SessionLease}
    (bound : (directory.unregister lease).single user = some session) :
    directory.single user = some session := by
  unfold unregister at bound
  split at bound
  · simp only at bound
    split at bound
    · rw [Function.update_apply] at bound
      split_ifs at bound
      exact bound
    · exact bound
  · exact bound

theorem single_purge_cases {now : Nat} (bound : (directory.purge now).single user = some session) :
    directory.single user = some session :=
  ((directory.single_purge now session user).mp bound).1

theorem single_renew_cases {lease : SessionLease} {now : Nat}
    (bound : ((renew lease now).call directory).2.single user = some session) :
    directory.single user = some session := by
  rcases renew_cases lease now directory with unchanged | purged | ⟨_, renewed⟩
  · rwa [unchanged] at bound
  · rw [purged] at bound
    exact single_purge_cases bound
  · rw [renewed] at bound
    exact single_purge_cases bound

end MemoryOnlineDirectory

section Directory

variable {context : ConnectionContext} {user : PlayerKey} {session : Uuid}
variable {own : Uuid} {identity : Identity} {now : Nat} {directory : MemoryOnlineDirectory}

theorem ConnectionContext.admitOnline_single {leaseAt : Nat}
    (bound : ((context.admitOnline own identity leaseAt now).call directory).2.single user =
      some session) : directory.single user = some session ∨ session = own := by
  rcases context.admitOnline_cases own identity leaseAt now directory with
    ⟨_, after, refused, left⟩ | ⟨_, offline⟩ | ⟨online, _, _, _, _, registered⟩
  · rw [refused] at bound
    rcases left with rfl | rfl
    · exact .inl bound
    · exact .inl (MemoryOnlineDirectory.single_purge_cases bound)
  · rw [offline] at bound
    exact .inl bound
  · rw [registered] at bound
    rcases MemoryOnlineDirectory.single_register_cases bound with ⟨same, _⟩ | older
    · exact .inr same.symm
    · exact .inl (MemoryOnlineDirectory.single_purge_cases older)

theorem ConnectionContext.removeOnline_single
    (bound : (context.removeOnline own identity now directory).single user = some session) :
    directory.single user = some session := by
  unfold ConnectionContext.removeOnline at bound
  split at bound
  · exact bound
  · exact MemoryOnlineDirectory.single_unregister_cases bound

/-- A login is bound to its own session or to the one it was bound to before. -/
theorem HandleStep.single {gateway after : Gateway} {stage next : HandleStage}
    (step : HandleStep context now gateway stage after next)
    (bound : after.directory.single user = some session) :
    gateway.directory.single user = some session ∨ session = gateway.session.id := by
  cases step with
  | acquire => exact ConnectionContext.admitOnline_single bound
  | consume claims =>
    refine .inl ?_
    rcases used : claims.consume gateway.store (Duration.asSecs now) with
      ⟨error | consumed, store⟩
    · rwa [used] at bound
    · rw [used] at bound
      simp only [ConnectionContext.afterConsume] at bound
      split at bound
      · exact bound
      · exact bound
  | remove => exact .inl (ConnectionContext.removeOnline_single bound)
  | _ => exact .inl bound

theorem ServeWorld.Step.single {world after : ServeWorld} {action : ServeWorld.Action}
    (step : ServeWorld.Step context world action after) (own : action.Own)
    (bound : after.gateway.directory.single user = some session) :
    world.gateway.directory.single user = some session ∨ session = world.gateway.session.id := by
  have left (world : ServeWorld) : world.leave.gateway.directory = world.gateway.directory := by
    unfold ServeWorld.leave
    split
    · rfl
    · rfl
  cases step with
  | elapse | foreign => exact own.elim
  | progress _ _ _ _ step => exact step.single bound
  | renew =>
    exact .inl (MemoryOnlineDirectory.single_renew_cases bound)
  | cleanup => exact .inl (ConnectionContext.removeOnline_single bound)
  | disconnect | leave =>
    rw [left] at bound
    exact .inl bound
  | authenticate | reconnect | dispatch | answer | cancel | cutOff => exact .inl bound

end Directory

section Keep

variable {context : ConnectionContext} {claims : TicketClaims} {previous : List Uuid}

def ServePhase.consumes : ServePhase → Option TicketClaims
  | .handling (.consuming claims _) => some claims
  | _ => none

theorem HandleStep.keeps {now : Nat} {gateway after : Gateway} {stage next : HandleStage}
    (step : HandleStep context now gateway stage after next) (ready : stage.Ready gateway.session)
    (anonymous : gateway.session.identity = none → gateway.session.state = .anonymous)
    (quiet : ¬(ServePhase.handling stage).Sending)
    (accepted : ∀ claims ∈ (ServePhase.handling stage).consumes,
      (claims.consume gateway.store (Duration.asSecs now)).1 = .ok claims)
    (carried : stage.carries = some (claims, previous)) :
    next.carries = some (claims, previous) := by
  cases step with
  | accepted => exact carried
  | consume consuming =>
    have success := accepted consuming rfl
    rcases used : consuming.consume gateway.store (Duration.asSecs now) with
      ⟨error | consumed, store⟩
    · rw [used] at success
      cases success
    · obtain rfl := TicketClaims.consume_ok used
      have known := Gateway.Session.authenticate_anonymous ready.1.2 (anonymous ready.1.1)
      simp only [ConnectionContext.afterConsume, known]
      exact carried
  | publish | kick => exact absurd trivial quiet
  | acquire | _ => cases carried

theorem ServeWorld.Step.keeps {world after : ServeWorld} {action : ServeWorld.Action}
    (step : ServeWorld.Step context world action after) (own : action.Own)
    (ready : ServeWorld.Ready world.gateway.session world.phase)
    (quiet : action = .progress → ¬world.phase.Sending)
    (kept : action ≠ .cancel ∧ action ≠ .disconnect)
    (accepted : action = .progress → ∀ claims ∈ world.phase.consumes,
      (claims.consume world.gateway.store (Duration.asSecs world.clock)).1 = .ok claims)
    (carried : world.phase.carries = some (claims, previous)) :
    after.phase.carries = some (claims, previous) := by
  have busy {phase : ServePhase} (same : world.phase = phase) (none_ : phase.carries = none) :
      after.phase.carries = some (claims, previous) := by
    rw [same, none_] at carried
    cases carried
  cases step with
  | elapse | foreign => exact own.elim
  | authenticate _ here | reconnect _ here | dispatch here | answer _ here | renew _ _ _ _ here
  | leave here | cleanup _ here | cutOff _ here => exact busy here rfl
  | cancel => exact absurd rfl kept.1
  | disconnect => exact absurd rfl kept.2
  | progress stage _ _ handling step =>
    rw [handling] at ready quiet accepted carried
    exact step.keeps (ready.stage stage rfl) (ready.anonymous trivial) (quiet rfl)
      (accepted rfl) carried

end Keep

def PushRequest.kicked (request : PushRequest) : Option Uuid :=
  match request.target with
  | .disconnect session => some session
  | _ => none

theorem kickRequest_validate {identity : Identity} {traceId : String} {session : Uuid}
    (valid : identity.validate = .ok ()) (short : traceId.utf8ByteSize ≤ 128)
    (named : session ≠ 0) :
    (GatewayServer.kickRequest identity traceId session).validate = .ok () := by
  unfold Identity.validate at valid
  split_ifs at valid with known
  refine if_neg ?_
  rintro (zero | zero | ⟨control, _⟩ | long | large | invalid)
  · exact known (.inr (.inr (.inl zero)))
  · exact known (.inr (.inr (.inr (.inl zero))))
  · exact control rfl
  · exact Nat.not_lt.mpr short long
  · exact absurd large (show ¬1024 * 1024 < "duplicate_login".toUTF8.data.toList.length by decide)
  · exact invalid (decide_eq_true named)

namespace Cluster

variable {ι : Type} {contexts : ι → ConnectionContext} {cluster after : Cluster ι}
  {action : Action ι} {session : Uuid}
variable {own : Uuid} {gateway : ι}

def Known (cluster : Cluster ι) (session : Uuid) : Prop :=
  ∃ connection, cluster.connections session = some connection

def Carries (cluster : Cluster ι) (own session : Uuid) : Prop :=
  ∃ connection claims previous, cluster.connections own = some connection ∧
    connection.phase.carries = some (claims, previous) ∧ session ∈ previous

/-- A login that carries somebody is not dropped, its ticket is accepted, and
whoever it carries is on its gateway or is sent a push; and a push finds the
session it is for authenticated. -/
def Diligent (cluster : Cluster ι) : Action ι → Prop
  | .serve own .cancel | .serve own .disconnect =>
    ∀ connection ∈ cluster.connections own, ∀ login ∈ connection.phase.carries, login.2 = []
  | .serve own .progress =>
    ∀ connection ∈ cluster.connections own, ∀ login ∈ connection.phase.carries, login.2 ≠ [] →
      ∀ claims ∈ connection.phase.consumes,
        (claims.consume cluster.store (Duration.asSecs cluster.clock)).1 = .ok claims
  | .kick own sent =>
    ∀ connection ∈ cluster.connections own, ∀ login ∈ connection.phase.carries,
      ∀ session ∈ login.2,
        session ∈ (cluster.servers connection.gateway).sessions ∨ sent session = true
  | .deliverPush gateway _ request =>
    ∀ session ∈ request.kicked, session ∈ (cluster.servers gateway).sessions →
      (cluster.servers gateway).index.identities[session]?.any
        (GatewayServer.inRealm request.regionId request.realmId)
  | _ => True

structure Pursued (contexts : ι → ConnectionContext) (cluster : Cluster ι) : Prop where
  wired : Wired cluster
  bound : ∀ user session, cluster.directory.single user = some session → cluster.Known session
  carried : ∀ own connection claims previous session, cluster.connections own = some connection →
    connection.phase.carries = some (claims, previous) → session ∈ previous →
      cluster.Known session ∧
        (contexts connection.gateway).online.any (·.duplicateLogin = .kickExisting)
  pushes : ∀ request ∈ cluster.pushes, ∃ identity traceId session,
    request = GatewayServer.kickRequest identity traceId session ∧
      request.validate = .ok () ∧ cluster.Known session
  reached : ∀ session gateway, (session, gateway) ∈ cluster.pushed →
    ∃ connection, cluster.connections session = some connection ∧
      (connection.gateway = gateway → cluster.Told session ∨ cluster.Gone session)
  pursued : ∀ own session, (own, session) ∈ cluster.displaced →
    cluster.Told session ∨ cluster.Gone session ∨ cluster.Carries own session ∨
      ∃ request ∈ cluster.pushes, request.target = .disconnect session

theorem Pursued.start (store : MemoryReplayProtectionStore) (clock : Nat) :
    Pursued contexts (start store clock : Cluster ι) where
  wired := .start store clock
  bound := fun _ _ bound => by cases bound
  carried := fun _ _ _ _ _ found => by cases found
  pushes := fun _ member => absurd member List.not_mem_nil
  reached := fun _ _ member => absurd member List.not_mem_nil
  pursued := fun _ _ member => absurd member List.not_mem_nil

theorem Wired.serves_of_listed (wired : Wired cluster)
    (listed : session ∈ (cluster.servers gateway).sessions) :
    ∃ connection handle, cluster.Serves gateway session connection ∧
      (cluster.servers gateway).sessions[session]? = some handle ∧ handle.watched = true := by
  by_contra unserved
  push Not at unserved
  have absent := (wired.absent gateway session (fun connection serves => by
    obtain ⟨handle, found, watched⟩ := wired.listening gateway session connection serves
    exact unserved connection handle serves found watched)).1
  have present := Std.ExtTreeMap.isSome_getElem?_iff_mem.mpr listed
  rw [absent] at present
  cases present

theorem Pursued.delivered (pursued : Pursued contexts cluster) {order : HashOrder Uuid}
    {text : List UInt8 → String} {request : PushRequest} {connection : Connection ι}
    (diligent : Diligent cluster (.deliverPush gateway order request))
    (sent : request ∈ cluster.pushes) (kicks : request.target = .disconnect session)
    (found : cluster.connections session = some connection) (here : connection.gateway = gateway)
    (still : connection.phase.Open) :
    ((GatewayServer.deliverInner order text request).call
      (cluster.servers gateway)).2.Told session := by
  obtain ⟨_, _, _, _, valid, _⟩ := pursued.pushes request sent
  obtain ⟨handle, present, watched⟩ := pursued.wired.listening gateway session connection
    ⟨found, here, still⟩
  have target : session ∈ request.kicked := by
    unfold PushRequest.kicked
    rw [kicks]
    rfl
  have listed : session ∈ (cluster.servers gateway).sessions := by
    rw [← Std.ExtTreeMap.isSome_getElem?_iff_mem, present]
    rfl
  rw [GatewayServer.deliverInner_disconnect text valid kicks, if_neg]
  · exact GatewayServer.onSession_told present watched
  · rintro (unknown | absent)
    · exact unknown (diligent session target listed)
    · exact absent listed

variable [DecidableEq ι]

theorem Step.known (taken : Step contexts cluster action after) (known : cluster.Known session) :
    after.Known session := by
  obtain ⟨connection, found⟩ := known
  obtain ⟨later, present, _⟩ := taken.kept found
  exact ⟨later, present⟩

theorem Step.bound (wired : Wired cluster) (taken : Step contexts cluster action after)
    {user : PlayerKey} (bound : after.directory.single user = some session) :
    cluster.directory.single user = some session ∨ cluster.Known session := by
  cases taken with
  | serve own connection _ _ found mine _ _ step =>
    refine (step.single mine bound).imp_right ?_
    rintro rfl
    have named := (wired.named own connection found).1
    exact ⟨connection, by rw [show (cluster.view connection).gateway.session.id = own from named,
      found]⟩
  | elapse | refill | connect | publish | kick | handleEvent | deliverPush => exact .inl bound

theorem Step.displaced (taken : Step contexts cluster action after)
    (member : (own, session) ∈ after.displaced) :
    (own, session) ∈ cluster.displaced ∨ after.Carries own session := by
  cases taken with
  | serve =>
    rcases List.mem_append.mp member with new | old
    · obtain ⟨reported, among, same⟩ := List.mem_map.mp new
      cases same
      unfold ServePhase.reporting at among
      split at among
      · rename_i answered
        exact .inr ⟨_, _, _, settle_self, by rw [answered]; rfl, among⟩
      · exact absurd among List.not_mem_nil
    · exact .inl old
  | elapse | refill | connect | publish | kick | handleEvent | deliverPush => exact .inl member

theorem Step.pushed (taken : Step contexts cluster action after)
    (member : (session, gateway) ∈ after.pushed) :
    (session, gateway) ∈ cluster.pushed ∨ ∃ order text request,
      action = .deliverPush gateway order request ∧ request ∈ cluster.pushes ∧
      request.target = .disconnect session ∧
      after.servers gateway =
        ((GatewayServer.deliverInner order text request).call (cluster.servers gateway)).2 := by
  cases taken with
  | deliverPush _ order text request _ published kicks =>
    rcases List.mem_cons.mp member with new | old
    · cases new
      exact .inr ⟨order, text, request, rfl, published, kicks, Function.update_self _ _ _⟩
    · exact .inl old
  | elapse | refill | connect | serve | publish | kick | handleEvent => exact .inl member

theorem Step.pushes_kept (taken : Step contexts cluster action after) {request : PushRequest}
    (member : request ∈ cluster.pushes) : request ∈ after.pushes := by
  cases taken with
  | kick _ connection claims previous sent traceId =>
    change request ∈ ((contexts connection.gateway).kickPrevious previous claims.identity traceId
      sent (cluster.servers connection.gateway, cluster.pushes)).2
    unfold ConnectionContext.kickPrevious
    split
    · exact member
    · exact GatewayServer.mem_kickEach_pushes member
  | elapse | refill | connect | serve | publish | handleEvent | deliverPush => exact member

section

variable (pursued : Pursued contexts cluster)
include pursued

theorem Pursued.kicked {sent : Uuid → Bool}
    (diligent : Diligent cluster (.kick own sent))
    (taken : Step contexts cluster (.kick own sent) after) (carries : cluster.Carries own session) :
    after.Told session ∨ ∃ request ∈ after.pushes, request.target = .disconnect session := by
  obtain ⟨connection, claims, previous, found, carried, member⟩ := carries
  have reachable := diligent connection found _ carried session member
  obtain ⟨_, kicks⟩ := pursued.carried own connection claims previous session found carried member
  have kept {target : Connection ι} (known : cluster.connections session = some target) :=
    taken.kept known
  cases taken with
  | kick _ _ _ _ _ traceId _ present busy =>
    cases found.symm.trans present
    rw [busy] at carried
    cases carried
    have loud : ¬(previous = [] ∨
        ¬(contexts connection.gateway).online.any (·.duplicateLogin = .kickExisting)) := by
      rintro (rfl | lenient)
      · exact absurd member List.not_mem_nil
      · exact lenient kicks
    have sends : (contexts connection.gateway).kickPrevious previous claims.identity traceId sent
        (cluster.servers connection.gateway, cluster.pushes) =
          GatewayServer.kickEach (GatewayServer.kickRequest claims.identity traceId) sent previous
            (cluster.servers connection.gateway, cluster.pushes) := if_neg loud
    by_cases listed : session ∈ (cluster.servers connection.gateway).sessions
    · obtain ⟨target, handle, serves, known, watched⟩ := pursued.wired.serves_of_listed listed
      obtain ⟨later, written, same⟩ := kept serves.1
      refine .inl ⟨later, written, ?_⟩
      rw [same, serves.2.1]
      change (Function.update cluster.servers connection.gateway _ connection.gateway).Told session
      rw [Function.update_self, sends]
      exact GatewayServer.kickEach_told member known watched
    · refine .inr ⟨GatewayServer.kickRequest claims.identity traceId session, ?_, rfl⟩
      change _ ∈ ((contexts connection.gateway).kickPrevious previous claims.identity traceId sent
        (cluster.servers connection.gateway, cluster.pushes)).2
      rw [sends]
      refine GatewayServer.kickEach_pushes member ?_ (reachable.resolve_left listed)
      rw [← Option.not_isSome_iff_eq_none, Std.ExtTreeMap.isSome_getElem?_iff_mem]
      exact listed

variable (diligent : Diligent cluster action) (taken : Step contexts cluster action after)
include diligent taken

/-- What a login carries is not lost. -/
theorem Pursued.carries_step (carries : cluster.Carries own session) :
    after.Told session ∨ after.Carries own session ∨
      ∃ request ∈ after.pushes, request.target = .disconnect session := by
  by_cases kicks : ∃ sent, action = .kick own sent
  · obtain ⟨sent, rfl⟩ := kicks
    exact (pursued.kicked diligent taken carries).imp_right .inr
  · obtain ⟨connection, claims, previous, found, carried, member⟩ := carries
    refine .inr (.inl ?_)
    have anybody : previous ≠ [] := List.ne_nil_of_mem member
    cases taken with
    | connect _ _ _ unused =>
      exact ⟨connection, claims, previous, (connect_others unused found).1, carried, member⟩
    | serve other _ _ _ present mine quiet _ step =>
      by_cases self : own = other
      · subst self
        cases found.symm.trans present
        have still := step.keeps mine (pursued.wired.ready own connection found) quiet
          ⟨by rintro rfl; exact anybody (diligent connection found _ carried),
            by rintro rfl; exact anybody (diligent connection found _ carried)⟩
          (by rintro rfl; exact diligent connection found _ carried anybody) carried
        exact ⟨_, claims, previous, settle_self, still, member⟩
      · exact ⟨connection, claims, previous, by rw [settle_other self, found], carried, member⟩
    | publish other _ _ _ _ present busy =>
      by_cases self : own = other
      · subst self
        cases found.symm.trans present
        rw [busy] at carried
        exact ⟨_, claims, previous, by rw [Wired.connections_write, if_pos rfl], carried, member⟩
      · exact ⟨connection, claims, previous,
          by rw [Wired.connections_write, if_neg self]; exact found, carried, member⟩
    | kick other _ _ _ sent =>
      by_cases self : own = other
      · subst self
        exact absurd ⟨sent, rfl⟩ kicks
      · exact ⟨connection, claims, previous,
          by rw [Wired.connections_write, if_neg self]; exact found, carried, member⟩
    | elapse | refill | handleEvent | deliverPush =>
      exact ⟨connection, claims, previous, found, carried, member⟩

theorem Pursued.reached_step (member : (session, gateway) ∈ after.pushed) :
    ∃ connection, after.connections session = some connection ∧
      (connection.gateway = gateway → after.Told session ∨ after.Gone session) := by
  rcases taken.pushed member with old | ⟨order, text, request, rfl, sent, kicks, outcome⟩
  · obtain ⟨connection, found, told⟩ := pursued.reached session gateway old
    obtain ⟨later, present, same⟩ := taken.kept found
    exact ⟨later, present, fun here => taken.told_or_gone (told (same.symm.trans here))⟩
  · obtain ⟨identity, traceId, target, rfl, _, connection, found⟩ := pursued.pushes request sent
    cases kicks
    obtain ⟨later, present, same⟩ := taken.kept found
    refine ⟨later, present, fun here => ?_⟩
    by_cases still : connection.phase.Open
    · refine .inl ⟨later, present, ?_⟩
      rw [here, outcome]
      exact pursued.delivered diligent sent rfl found (same.symm.trans here) still
    · exact .inr (taken.gone ⟨connection, found, ServePhase.not_running still⟩)

theorem Pursued.step : Pursued contexts after := by
  refine ⟨pursued.wired.step taken, ?_, ?_, ?_, ?_, ?_⟩
  · intro user session bound
    rcases taken.bound pursued.wired bound with old | known
    · exact taken.known (pursued.bound user session old)
    · exact taken.known known
  · intro own later claims previous session found carried member
    obtain ⟨connection, present, same, before | ⟨_, _, _, leaseAt, reported⟩⟩ :=
      taken.carries found carried
    · obtain ⟨known, kicks⟩ :=
        pursued.carried own connection claims previous session present before member
      exact ⟨taken.known known, same ▸ kicks⟩
    · obtain ⟨bound, _, kicks⟩ := ConnectionContext.admitOnline_previous reported member
      exact ⟨taken.known (pursued.bound _ session bound), same ▸ kicks⟩
  · intro request member
    rcases taken.pushes member with
      old | ⟨own, connection, claims, previous, other, traceId, found, busy, among, _, short, rfl⟩
    · obtain ⟨identity, traceId, session, rfl, valid, known⟩ := pursued.pushes request old
      exact ⟨identity, traceId, session, rfl, valid, taken.known known⟩
    · obtain ⟨_, valid⟩ := pursued.wired.logged_in found (.inr busy)
      obtain ⟨⟨target, known⟩, _⟩ := pursued.carried own connection claims previous other found
        (by rw [busy]; rfl) among
      exact ⟨claims.identity, traceId, other, rfl,
        kickRequest_validate valid short (pursued.wired.named other target known).2,
        taken.known ⟨target, known⟩⟩
  · intro session gateway member
    exact pursued.reached_step diligent taken member
  · intro own session member
    rcases taken.displaced member with old | carries
    · rcases pursued.pursued own session old with told | gone | carries | ⟨request, sent, kicks⟩
      · rcases taken.told told with still | gone
        · exact .inl still
        · exact .inr (.inl gone)
      · exact .inr (.inl (taken.gone gone))
      · rcases pursued.carries_step diligent taken carries with told | still | pushed
        · exact .inl told
        · exact .inr (.inr (.inl still))
        · exact .inr (.inr (.inr pushed))
      · exact .inr (.inr (.inr ⟨request, taken.pushes_kept sent, kicks⟩))
    · exact .inr (.inr (.inl carries))

end

/-- A displaced session has been told to disconnect, or has left, once the login that displaced it
has come to its end and the pushes to it have arrived, in every run in which such logins are not
dropped and their pushes find the session authenticated. -/
theorem displaced_session_told {store : MemoryReplayProtectionStore} {clock : Nat}
    (run : RunWhen Diligent (Step contexts) (start store clock) cluster) {own session : Uuid}
    (reported : (own, session) ∈ cluster.displaced) (ended : ¬cluster.Carries own session)
    (delivered : ∀ request ∈ cluster.pushes, request.target = .disconnect session →
      ∀ connection ∈ cluster.connections session,
        (session, connection.gateway) ∈ cluster.pushed) :
    cluster.Told session ∨ cluster.Gone session := by
  have pursued : Pursued contexts cluster :=
    run.invariant (fun _ _ _ diligent taken pursued => pursued.step diligent taken)
      (.start store clock)
  rcases pursued.pursued own session reported with told | gone | carries | ⟨request, sent, kicks⟩
  · exact .inl told
  · exact .inr gone
  · exact absurd carries ended
  · obtain ⟨identity, traceId, target, rfl, _, connection, found⟩ := pursued.pushes request sent
    cases kicks
    obtain ⟨current, present, reached⟩ :=
      pursued.reached session _ (delivered _ sent rfl connection found)
    cases found.symm.trans present
    exact reached rfl

section Sample

instance : (action : Action ι) → Decidable (Diligent cluster action)
  | .serve _ .cancel | .serve _ .disconnect =>
    inferInstanceAs (Decidable (∀ connection ∈ _, ∀ login ∈ _, _ = _))
  | .serve _ .progress =>
    inferInstanceAs (Decidable (∀ connection ∈ _, ∀ login ∈ _, _ → ∀ claims ∈ _, _ = _))
  | .kick .. =>
    inferInstanceAs (Decidable (∀ connection ∈ _, ∀ login ∈ _, ∀ session ∈ _, _ ∨ _))
  | .deliverPush .. => inferInstanceAs (Decidable (∀ session ∈ _, _ → _))
  | .serve _ (.elapse _) | .serve _ (.foreign _) | .serve _ (.receive _) | .serve _ .answer
  | .serve _ (.renew _) | .serve _ .leave | .serve _ .cleanup | .serve _ .cutOff | .elapse _
  | .refill .. | .connect .. | .publish .. | .handleEvent .. => isTrue trivial

def takeover : Cluster Bool :=
  memberCluster .kickExisting (login true 1 "first.signature" ++
    login true 2 "second.signature" ++ [.kick 2 (fun _ => false)])

theorem takeover_told : takeover.Told 1 ∨ takeover.Gone 1 := by
  have idle : ∀ connection ∈ takeover.connections 2, connection.phase.carries = none := by
    decide +kernel
  have silent : takeover.pushes = [] := by decide +kernel
  have run : RunWhen Diligent (Step (fun _ => memberContext .kickExisting))
      (start .new ServeWorld.loginTime) takeover := member_run (by decide +kernel)
  refine displaced_session_told run (by decide +kernel : (2, 1) ∈ takeover.displaced) ?_ ?_
  · rintro ⟨connection, claims, previous, found, carried, _⟩
    cases (idle connection found).symm.trans carried
  · intro request member
    rw [silent] at member
    exact absurd member List.not_mem_nil

def dropped : Cluster Bool :=
  memberCluster .kickExisting (login true 1 "first.signature" ++
    (login true 2 "second.signature").take 7 ++ [.serve 2 .cancel])

def lease (cluster : Cluster ι) (session : Uuid) : SessionLease :=
  ConnectionContext.kickConfig.lease session loginIdentity cluster.clock

/-- The login that displaced session 1 has timed out. Nobody tells session 1, and
the directory renews its lease next to that of session 2. -/
theorem dropped_login_tells_nobody :
    RunWhen (fun _ _ => True) (Step (fun _ => memberContext .kickExisting))
        (start .new ServeWorld.loginTime) dropped ∧
      (2, 1) ∈ dropped.displaced ∧
      (∀ connection ∈ dropped.connections 2, connection.phase.carries = none) ∧
      dropped.pushes = [] ∧ dropped.Connected 1 ∧
      (((MemoryOnlineDirectory.renew (dropped.lease 1) dropped.clock).call
        dropped.directory).1 = .ok ()) ∧
      ∀ session ∈ [1, 2], ((MemoryOnlineDirectory.renew (dropped.lease 1) dropped.clock).call
        dropped.directory).2.sessions[session]? = some (dropped.lease session) := by
  refine ⟨member_run (by decide +kernel), ?_⟩
  decide +kernel

end Sample

end Cluster

end Elura
