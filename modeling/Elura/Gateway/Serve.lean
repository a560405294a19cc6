import Elura.Basis.Runs
import Elura.Gateway.Connection
import Elura.Gateway.PresenceEntries

/-!
The life of one connection: `serve` handles requests one at a time and finally takes its session
out of the online directory. A request can be dropped before any of its steps; the cleanup removes
the lease of the identity the session has by then.
-/

namespace Elura

open MemoryOnlineDirectory

inductive HandleResponse
  | authenticated (response : AuthenticateResponse)
  | reconnect (response : ReconnectTicketResponse)
  | payload (bytes : List UInt8)
  deriving DecidableEq, Repr

/-- The call a request is waiting for. `acquired` is the answer of the directory
on its way back. -/
inductive HandleStage
  | received (request : Except Error String)
  | admitting (claims : TicketClaims)
  | checkingVersion (claims : TicketClaims)
  | acquiring (claims : TicketClaims)
  | acquired (claims : TicketClaims) (answer : Except Error (List Uuid))
  | consuming (claims : TicketClaims) (previous : List Uuid)
  | removing (claims : TicketClaims) (error : Error)
  | publishing (claims : TicketClaims) (previous : List Uuid)
  | kicking (claims : TicketClaims) (previous : List Uuid)
  | receivedReconnect (request : Except Error String)
  | reconnecting (claims : TicketClaims)
  | dispatching
  | finished (result : Except Error HandleResponse)

namespace ConnectionContext

def verifyReconnect (context : ConnectionContext) (session : Gateway.Session)
    (request : Except Error String) (now : Nat) : Except Error TicketClaims := do
  let ticket ← request
  if ticket = "" then .error .authentication
  else match session.identity with
    | none => .error .authentication
    | some identity =>
      let claims ← context.tickets.validate context.format ticket (Duration.asSecs now)
      if claims.purpose ≠ .reconnect ∨ claims.identity ≠ identity then .error .authentication
      else return claims

def afterPolicy (answer : Except Error Unit) (next : HandleStage) : HandleStage :=
  match answer with
  | .ok () => next
  | .error error => .finished (.error error)

def respondReconnect (context : ConnectionContext) (identity : Identity) (id : String)
    (now : Nat) (respond : ReconnectTicketResponse → HandleResponse) : HandleStage :=
  .finished ((context.issueReconnect identity id now).map respond)

def afterConsume (gateway : Gateway) (claims : TicketClaims) (previous : List Uuid) :
    Except Error TicketClaims × MemoryReplayProtectionStore → Gateway × HandleStage
  | (.error error, store) => ({ gateway with store }, .removing claims error)
  | (.ok consumed, store) =>
    match gateway.session.authenticate consumed.identity with
    | .error error => ({ gateway with store }, .finished (.error error))
    | .ok session => ({ gateway with store, session }, .publishing consumed previous)

end ConnectionContext

inductive HandleStep (context : ConnectionContext) (now : Nat) (gateway : Gateway) :
    HandleStage → Gateway → HandleStage → Prop
  | refuse (request : Except Error String) (error : Error)
      (refused : context.verifyTicket gateway.session request now = .error error) :
      HandleStep context now gateway (.received request) gateway (.finished (.error error))
  | verify (request : Except Error String) (claims : TicketClaims)
      (verified : context.verifyTicket gateway.session request now = .ok claims) :
      HandleStep context now gateway (.received request) gateway (.admitting claims)
  | checkAdmission (claims : TicketClaims) (answer : Except Error Unit) :
      HandleStep context now gateway (.admitting claims) gateway
        (ConnectionContext.afterPolicy answer (.checkingVersion claims))
  | checkVersion (claims : TicketClaims) (answer : Except Error Unit) :
      HandleStep context now gateway (.checkingVersion claims) gateway
        (ConnectionContext.afterPolicy answer (.acquiring claims))
  | acquire (claims : TicketClaims) (leaseAt : Nat) (past : leaseAt ≤ now) :
      HandleStep context now gateway (.acquiring claims)
        { gateway with directory := ((context.admitOnline gateway.session.id claims.identity
          leaseAt now).call gateway.directory).2 }
        (.acquired claims ((context.admitOnline gateway.session.id claims.identity leaseAt
          now).call gateway.directory).1)
  | accepted (claims : TicketClaims) (previous : List Uuid) :
      HandleStep context now gateway (.acquired claims (.ok previous)) gateway
        (.consuming claims previous)
  | rejected (claims : TicketClaims) (error : Error) :
      HandleStep context now gateway (.acquired claims (.error error)) gateway
        (.finished (.error error))
  | consume (claims : TicketClaims) (previous : List Uuid) :
      HandleStep context now gateway (.consuming claims previous)
        (ConnectionContext.afterConsume gateway claims previous
          (claims.consume gateway.store (Duration.asSecs now))).1
        (ConnectionContext.afterConsume gateway claims previous
          (claims.consume gateway.store (Duration.asSecs now))).2
  | remove (claims : TicketClaims) (error : Error) :
      HandleStep context now gateway (.removing claims error)
        { gateway with
          directory := context.removeOnline gateway.session.id claims.identity now
            gateway.directory }
        (.finished (.error error))
  | publish (claims : TicketClaims) (previous : List Uuid) :
      HandleStep context now gateway (.publishing claims previous) gateway
        (.kicking claims previous)
  | kick (claims : TicketClaims) (previous : List Uuid) (reconnectId : String) :
      HandleStep context now gateway (.kicking claims previous) gateway
        (context.respondReconnect claims.identity reconnectId now (fun reconnect =>
          .authenticated ⟨gateway.session.id, claims.identity, reconnect⟩))
  | refuseReconnect (request : Except Error String) (error : Error)
      (refused : context.verifyReconnect gateway.session request now = .error error) :
      HandleStep context now gateway (.receivedReconnect request) gateway
        (.finished (.error error))
  | verifyReconnect (request : Except Error String) (claims : TicketClaims)
      (verified : context.verifyReconnect gateway.session request now = .ok claims) :
      HandleStep context now gateway (.receivedReconnect request) gateway (.reconnecting claims)
  | replayedReconnect (claims : TicketClaims) (error : Error)
      (store : MemoryReplayProtectionStore)
      (refused : claims.consume gateway.store (Duration.asSecs now) = (.error error, store)) :
      HandleStep context now gateway (.reconnecting claims) { gateway with store }
        (.finished (.error error))
  | reconnect (claims consumed : TicketClaims) (store : MemoryReplayProtectionStore)
      (reconnectId : String)
      (success : claims.consume gateway.store (Duration.asSecs now) = (.ok consumed, store)) :
      HandleStep context now gateway (.reconnecting claims) { gateway with store }
        (context.respondReconnect consumed.identity reconnectId now .reconnect)
  | dispatch (result : Except Error (List UInt8)) :
      HandleStep context now gateway .dispatching gateway (.finished (result.map .payload))

inductive ServePhase
  | waiting
  | handling (stage : HandleStage)
  | cleaning (identity : Identity)
  | closed

structure ServeWorld where
  gateway : Gateway
  clock : Nat
  phase : ServePhase

namespace ServeWorld

def start (session : Uuid) (directory : MemoryOnlineDirectory)
    (store : MemoryReplayProtectionStore) (clock : Nat) : ServeWorld where
  gateway := { session := .new session, directory, store }
  clock
  phase := .waiting

def leave (world : ServeWorld) : ServeWorld :=
  match world.gateway.session.identity with
  | some identity => { world with phase := .cleaning identity }
  | none => { world with
      gateway := { world.gateway with session := world.gateway.session.close }
      phase := .closed }

inductive Action
  | elapse (later : Nat)
  | foreign (operation : DirectoryOperation)
  | receive (stage : HandleStage)
  | progress
  | answer
  | cancel
  | disconnect
  | renew (leaseAt : Nat)
  | leave
  | cleanup
  | cutOff

inductive Step (context : ConnectionContext) (world : ServeWorld) : Action → ServeWorld → Prop
  | elapse (later : Nat) (forward : world.clock ≤ later) :
      Step context world (.elapse later) { world with clock := later }
  | foreign (operation : DirectoryOperation)
      (other : operation.Foreign world.gateway.session.id) :
      Step context world (.foreign operation) { world with
        gateway := { world.gateway with
          directory := operation.apply world.clock world.gateway.directory } }
  | authenticate (request : Except Error String) (idle : world.phase = .waiting)
      (anonymous : world.gateway.session.identity = none) :
      Step context world (.receive (.received request))
        { world with phase := .handling (.received request) }
  | reconnect (request : Except Error String) (idle : world.phase = .waiting)
      (known : world.gateway.session.identity.isSome) :
      Step context world (.receive (.receivedReconnect request))
        { world with phase := .handling (.receivedReconnect request) }
  | dispatch (idle : world.phase = .waiting) (known : world.gateway.session.identity.isSome) :
      Step context world (.receive .dispatching) { world with phase := .handling .dispatching }
  | progress (stage next : HandleStage) (gateway : Gateway)
      (busy : world.phase = .handling stage)
      (step : HandleStep context world.clock world.gateway stage gateway next) :
      Step context world .progress { world with gateway, phase := .handling next }
  | answer (result : Except Error HandleResponse)
      (done : world.phase = .handling (.finished result)) :
      Step context world .answer { world with phase := .waiting }
  | cancel (stage : HandleStage) (busy : world.phase = .handling stage) :
      Step context world .cancel { world with phase := .waiting }
  | disconnect (stage : HandleStage) (busy : world.phase = .handling stage) :
      Step context world .disconnect world.leave
  | renew (online : GatewayOnlineConfig) (identity : Identity) (leaseAt : Nat)
      (configured : context.online = some online) (idle : world.phase = .waiting)
      (known : world.gateway.session.identity = some identity) (past : leaseAt ≤ world.clock) :
      Step context world (.renew leaseAt) { world with
        gateway := { world.gateway with
          directory := ((MemoryOnlineDirectory.renew
            (online.lease world.gateway.session.id identity leaseAt) world.clock).call
              world.gateway.directory).2 } }
  | leave (idle : world.phase = .waiting) : Step context world .leave world.leave
  | cleanup (identity : Identity) (ending : world.phase = .cleaning identity) :
      Step context world .cleanup { world with
        gateway := { world.gateway with
          directory := context.removeOnline world.gateway.session.id identity world.clock
            world.gateway.directory
          session := world.gateway.session.close }
        phase := .closed }
  | cutOff (identity : Identity) (ending : world.phase = .cleaning identity) :
      Step context world .cutOff { world with
        gateway := { world.gateway with session := world.gateway.session.close }
        phase := .closed }

abbrev ReachableWhen (allowed : ServeWorld → Action → Prop) (context : ConnectionContext) :
    ServeWorld → ServeWorld → Prop :=
  RunWhen allowed (Step context)

end ServeWorld

def HandleStage.entered : HandleStage → Option Identity
  | .acquired claims (.ok _) | .consuming claims _ | .removing claims _ => some claims.identity
  | _ => none

def HandleStage.Sound (session : Gateway.Session) : HandleStage → Prop
  | .admitting claims | .checkingVersion claims | .acquiring claims | .acquired claims _
  | .consuming claims _ | .removing claims _ =>
    session.identity = none ∧ claims.identity.validate = .ok ()
  | _ => True

structure Gateway.Sound (session : Uuid) (gatewayId : String) (entered : Option Identity)
    (gateway : Gateway) : Prop where
  named : gateway.session.id = session
  anonymous : gateway.session.identity = none → gateway.session.state = .anonymous
  entries : Entries session gatewayId (entered.or gateway.session.identity) gateway.directory

section Handle

variable {context : ConnectionContext} {online : GatewayOnlineConfig} {session : Uuid}
  {gateway after : Gateway} {stage next : HandleStage} {now : Nat}

theorem TicketClaims.consume_ok {claims consumed : TicketClaims}
    {store later : MemoryReplayProtectionStore}
    (success : claims.consume store now = (.ok consumed, later)) : consumed = claims := by
  unfold TicketClaims.consume at success
  split at success
  · cases success
    rfl
  · cases success

theorem Gateway.Session.authenticate_anonymous {current : Gateway.Session} {identity : Identity}
    (valid : identity.validate = .ok ()) (anonymous : current.state = .anonymous) :
    current.authenticate identity =
      .ok { current with identity := some identity, state := .authenticated } := by
  unfold Gateway.Session.authenticate
  rw [valid]
  exact if_neg (not_not.mpr anonymous)

theorem Gateway.Sound.acquire (configured : context.online = some online)
    (sound : gateway.Sound session online.gatewayId none)
    (anonymous : gateway.session.identity = none) (claims : TicketClaims) (leaseAt now : Nat) :
    Entries session online.gatewayId
      (HandleStage.acquired claims ((context.admitOnline gateway.session.id claims.identity leaseAt
        now).call gateway.directory).1).entered
      ((context.admitOnline gateway.session.id claims.identity leaseAt
        now).call gateway.directory).2 := by
  have absent : Absent session gateway.directory := by
    have entries := sound.entries
    rw [anonymous] at entries
    exact entries.absent
  rcases context.admitOnline_cases gateway.session.id claims.identity leaseAt now
    gateway.directory with
    ⟨error, after, refused, left⟩ | ⟨offline, _⟩ | ⟨chosen, same, _, _, _, accepted⟩
  · rw [refused]
    rcases left with rfl | rfl
    · exact absent.entries _ _
    · exact (absent.purge now).entries _ _
  · rw [configured] at offline
    cases offline
  · cases configured.symm.trans same
    rw [accepted, sound.named]
    exact @Absent.register (gateway.directory.purge now) (online.lease session claims.identity leaseAt)
      (absent.purge now) online.duplicateLogin

theorem removeOnline_absent {directory : MemoryOnlineDirectory} {identity : Identity}
    (configured : context.online = some online)
    (entries : Entries session online.gatewayId (some identity) directory) (now : Nat) :
    Absent session (context.removeOnline session identity now directory) := by
  unfold ConnectionContext.removeOnline
  rw [configured]
  exact @Entries.unregisterOwn directory (online.lease session identity now) entries

theorem HandleStep.sound (configured : context.online = some online)
    (step : HandleStep context now gateway stage after next)
    (sound : gateway.Sound session online.gatewayId stage.entered)
    (ready : stage.Sound gateway.session) :
    after.Sound session online.gatewayId next.entered ∧ next.Sound after.session := by
  cases step with
  | refuse | rejected | publish | kick | refuseReconnect | verifyReconnect | dispatch =>
    exact ⟨sound, trivial⟩
  | verify _ _ verified =>
    exact ⟨sound, ConnectionContext.verifyTicket_ok verified⟩
  | checkAdmission _ answer | checkVersion _ answer =>
    cases answer with
    | error => exact ⟨sound, trivial⟩
    | ok => exact ⟨sound, ready⟩
  | acquire claims leaseAt =>
    refine ⟨⟨sound.named, sound.anonymous, ?_⟩, ready⟩
    have entries := sound.acquire configured ready.1 claims leaseAt now
    rw [ready.1, Option.or_none]
    exact entries
  | accepted => exact ⟨sound, ready⟩
  | consume claims =>
    rcases used : claims.consume gateway.store (Duration.asSecs now) with
      ⟨error | consumed, store⟩
    · exact ⟨⟨sound.named, sound.anonymous, sound.entries⟩, ready⟩
    · obtain rfl := TicketClaims.consume_ok used
      have known := Gateway.Session.authenticate_anonymous ready.2 (sound.anonymous ready.1)
      simp only [ConnectionContext.afterConsume, known]
      exact ⟨⟨sound.named, fun impossible => (nomatch impossible), sound.entries⟩, trivial⟩
  | remove =>
    refine ⟨⟨sound.named, sound.anonymous, ?_⟩, trivial⟩
    rw [sound.named]
    exact (removeOnline_absent configured sound.entries now).entries _ _
  | replayedReconnect | reconnect => exact ⟨⟨sound.named, sound.anonymous, sound.entries⟩, trivial⟩

end Handle

def ServePhase.Sound (session : Uuid) (gatewayId : String) (gateway : Gateway) :
    ServePhase → Prop
  | .waiting => gateway.Sound session gatewayId none
  | .handling stage =>
    gateway.Sound session gatewayId stage.entered ∧ stage.Sound gateway.session
  | .cleaning identity =>
    gateway.Sound session gatewayId none ∧ gateway.session.identity = some identity
  | .closed => gateway.session.id = session ∧ Absent session gateway.directory

theorem ServePhase.Sound.named {session : Uuid} {gatewayId : String} {gateway : Gateway}
    {phase : ServePhase} (sound : phase.Sound session gatewayId gateway) :
    gateway.session.id = session := by
  cases phase with
  | waiting => exact Gateway.Sound.named sound
  | handling | cleaning => exact sound.1.named
  | closed => exact sound.1

theorem ServePhase.Sound.foreign {session : Uuid} {gatewayId : String} {gateway : Gateway}
    {phase : ServePhase} (sound : phase.Sound session gatewayId gateway)
    {operation : DirectoryOperation} (other : operation.Foreign session) (now : Nat) :
    phase.Sound session gatewayId
      { gateway with directory := operation.apply now gateway.directory } := by
  have kept {entered : Option Identity} (sound : gateway.Sound session gatewayId entered) :
      Gateway.Sound session gatewayId entered
        { gateway with directory := operation.apply now gateway.directory } :=
    ⟨sound.named, sound.anonymous, DirectoryOperation.entries other now sound.entries⟩
  cases phase with
  | waiting => exact kept sound
  | handling | cleaning => exact ⟨kept sound.1, sound.2⟩
  | closed =>
    exact ⟨sound.1, (DirectoryOperation.entries other now (sound.2.entries "" none)).absent⟩

namespace ServeWorld

variable {context : ConnectionContext} {online : GatewayOnlineConfig} {session : Uuid}
  {world : ServeWorld}

/-- No request is dropped while its entry in the directory is in nobody's hands,
and the final cleanup is not cut off. -/
def Undisturbed (world : ServeWorld) : Action → Prop
  | .cancel | .disconnect => ∀ stage, world.phase = .handling stage → stage.entered = none
  | .cutOff => False
  | _ => True

def Invariant (session : Uuid) (gatewayId : String) (world : ServeWorld) : Prop :=
  world.phase.Sound session gatewayId world.gateway

theorem invariant_leave {gatewayId : String} (sound : world.gateway.Sound session gatewayId none) :
    Invariant session gatewayId world.leave := by
  unfold leave
  cases known : world.gateway.session.identity with
  | some => exact ⟨sound, known⟩
  | none =>
    have entries := sound.entries
    rw [known] at entries
    exact ⟨sound.named, entries.absent⟩

theorem Step.invariant (configured : context.online = some online) {action : Action}
    {after : ServeWorld} (step : Step context world action after)
    (undisturbed : Undisturbed world action)
    (invariant : Invariant session online.gatewayId world) :
    Invariant session online.gatewayId after := by
  have named := ServePhase.Sound.named invariant
  cases step with
  | elapse => exact invariant
  | foreign _ other => exact ServePhase.Sound.foreign invariant (named ▸ other) _
  | authenticate _ idle | reconnect _ idle | dispatch idle =>
    rw [Invariant, idle] at invariant
    exact ⟨invariant, trivial⟩
  | progress _ _ _ busy step =>
    rw [Invariant, busy] at invariant
    exact step.sound configured invariant.1 invariant.2
  | answer _ done =>
    rw [Invariant, done] at invariant
    exact invariant.1
  | cancel stage busy =>
    rw [Invariant, busy] at invariant
    have sound := invariant.1
    rw [undisturbed stage busy] at sound
    exact sound
  | disconnect stage busy =>
    rw [Invariant, busy] at invariant
    have sound := invariant.1
    rw [undisturbed stage busy] at sound
    exact invariant_leave sound
  | renew _ identity leaseAt same idle known =>
    cases configured.symm.trans same
    rw [Invariant, idle] at invariant ⊢
    have entries := invariant.entries
    rw [known] at entries
    refine ⟨named, invariant.anonymous, ?_⟩
    rw [known, named]
    exact @Entries.renewOwn _ identity (online.lease session identity leaseAt) entries _
  | leave idle =>
    rw [Invariant, idle] at invariant
    exact invariant_leave invariant
  | cleanup _ ending =>
    rw [Invariant, ending] at invariant
    have entries := invariant.1.entries
    rw [invariant.2] at entries
    refine ⟨named, ?_⟩
    rw [named]
    exact removeOnline_absent configured entries _
  | cutOff => exact undisturbed.elim

section Uninterrupted

variable {first : ServeWorld} {gateway after : Gateway} {clock : Nat} {stage next : HandleStage}

theorem progressed
    (run : ReachableWhen Undisturbed context first ⟨gateway, clock, .handling stage⟩)
    {now : Nat} (forward : clock ≤ now)
    (step : HandleStep context now gateway stage after next) :
    ReachableWhen Undisturbed context first ⟨after, now, .handling next⟩ :=
  (run.take (.elapse now forward) trivial).take (.progress stage next after rfl step) trivial

/-- The readings of the clock are in the order in which the call makes them. -/
structure Ordered (call : AuthenticateCall) : Prop where
  lease : call.leaseAt ≤ call.acquiredAt
  acquired : call.validatedAt ≤ call.acquiredAt
  consumed : call.acquiredAt ≤ call.consumedAt
  removed : call.consumedAt ≤ call.removedAt
  reconnected : call.consumedAt ≤ call.reconnectAt

theorem acquired_runs {call : AuthenticateCall} (ordered : Ordered call) {claims : TicketClaims}
    (run : ReachableWhen Undisturbed context first
      ⟨gateway, call.validatedAt, .handling (.acquiring claims)⟩) :
    ∃ clock, ReachableWhen Undisturbed context first
      ⟨(context.enter call gateway claims).2, clock,
        .handling (.finished ((context.enter call gateway claims).1.map .authenticated))⟩ := by
  have asking := progressed run ordered.acquired (.acquire claims call.leaseAt ordered.lease)
  unfold ConnectionContext.enter
  rcases asked : (context.admitOnline gateway.session.id claims.identity call.leaseAt
    call.acquiredAt).call gateway.directory with ⟨error | previous, directory⟩
  · rw [asked] at asking
    exact ⟨_, progressed asking le_rfl (.rejected claims error)⟩
  · rw [asked] at asking
    have consuming := progressed asking le_rfl (.accepted claims previous)
    have used := progressed consuming ordered.consumed (.consume claims previous)
    simp only at used ⊢
    rcases spent : claims.consume gateway.store (Duration.asSecs call.consumedAt) with
      ⟨error | consumed, store⟩
    · rw [spent] at used
      exact ⟨_, progressed used ordered.removed (.remove claims error)⟩
    · rw [spent] at used
      simp only [ConnectionContext.afterConsume] at used ⊢
      cases known : gateway.session.authenticate consumed.identity with
      | error =>
        rw [known] at used
        exact ⟨_, used⟩
      | ok =>
        rw [known] at used
        have kicking := progressed used le_rfl (.publish consumed previous)
        have done := progressed kicking ordered.reconnected
          (.kick consumed previous call.reconnectId)
        unfold ConnectionContext.respondReconnect at done
        simp only at done ⊢
        cases issued : context.issueReconnect consumed.identity call.reconnectId
          call.reconnectAt with
        | error | ok =>
          rw [issued] at done
          exact ⟨_, done⟩

end Uninterrupted

/-- A connection leaves nothing in the directory, in every run in which no request
is dropped between its entry in the directory and the authentication or removal
of its session, and in which the final cleanup is not cut off. -/
theorem serve_leaves_nothing (configured : context.online = some online)
    {directory : MemoryOnlineDirectory} {store : MemoryReplayProtectionStore} {clock : Nat}
    (absent : Absent session directory)
    (run : ReachableWhen Undisturbed context (start session directory store clock) world)
    (closed : world.phase = .closed) : Absent session world.gateway.directory := by
  have invariant : Invariant session online.gatewayId world :=
    run.invariant (fun _ _ _ undisturbed step => step.invariant configured undisturbed)
      ⟨rfl, fun _ => rfl, absent.entries _ _⟩
  rw [Invariant, closed] at invariant
  exact invariant.2

section Login

open ConnectionContext (kickConfig kickContext)

def loginTime : Nat := Duration.ofSecs 100

def loginLease : SessionLease :=
  kickConfig.lease 1 loginIdentity loginTime

def loginDirectory : MemoryOnlineDirectory :=
  (MemoryOnlineDirectory.new.purge loginTime).register loginLease .kickExisting

theorem login_consuming : ∃ previous, ReachableWhen Undisturbed kickContext
    (start 1 .new .new loginTime)
    ⟨⟨.new 1, loginDirectory, .new⟩, loginTime, .handling (.consuming loginClaims previous)⟩ := by
  obtain ⟨previous, admitted⟩ := @ConnectionContext.admitOnline_accepts kickContext loginTime
    1 loginIdentity loginTime .new kickConfig rfl rfl (by decide) (by decide)
    (by simp [full, GatewayOnlineConfig.policy, GatewayOnlineConfig.maxSessions, kickConfig])
  have begun : ReachableWhen Undisturbed kickContext (start 1 .new .new loginTime) _ :=
    (RunWhen.refl _).take (.authenticate (.ok "login.signature") rfl rfl) trivial
  have verified := progressed begun le_rfl (.verify _ loginClaims (by decide))
  have allowed := progressed verified le_rfl (.checkAdmission loginClaims (.ok ()))
  have current := progressed allowed le_rfl (.checkVersion loginClaims (.ok ()))
  have acquired := progressed current le_rfl
    (.acquire loginClaims loginTime le_rfl)
  rw [show (kickContext.admitOnline (start 1 .new .new loginTime).gateway.session.id
    loginClaims.identity loginTime (start 1 .new .new loginTime).clock).call
      (start 1 .new .new loginTime).gateway.directory = _ from admitted] at acquired
  exact ⟨previous, progressed acquired le_rfl (.accepted loginClaims previous)⟩

theorem absent_new (session : Uuid) : Absent session .new where
  lease := Std.ExtTreeMap.getElem?_empty
  slot := fun _ placed => absurd placed (Finset.notMem_empty _)
  single := nofun

/-- The login succeeds; when the connection ends, its entry is gone. -/
theorem login_cleaned : ∃ world,
    ReachableWhen Undisturbed kickContext (start 1 .new .new loginTime) world ∧
      world.phase = .closed ∧ world.gateway.session.identity = some loginIdentity ∧
      Absent 1 world.gateway.directory := by
  obtain ⟨previous, consuming⟩ := login_consuming
  obtain ⟨store, consumed⟩ := @TicketClaims.consume_accepted loginClaims .new 100
    (MemoryReplayProtectionStore.reserve_new _ (by decide))
  have used := progressed consuming le_rfl (.consume loginClaims previous)
  rw [show loginClaims.consume .new (Duration.asSecs loginTime) = _ from consumed] at used
  have kicking := progressed used le_rfl (.publish loginClaims previous)
  have done := progressed kicking le_rfl (.kick loginClaims previous "reconnect")
  have closed := ((done.take (.answer _ rfl) trivial).take (.leave rfl) trivial).take
    (.cleanup loginIdentity rfl) trivial
  exact ⟨_, closed, rfl, rfl, serve_leaves_nothing rfl (absent_new 1) closed rfl⟩

/-- The request deadline passes while the ticket is being consumed. The connection
ends, and the directory still holds everything the login had entered. -/
theorem dropped_login_leaks : ∃ world,
    ReachableWhen (fun _ _ => True) kickContext (start 1 .new .new loginTime) world ∧
      Absent 1 (start 1 .new .new loginTime).gateway.directory ∧ world.phase = .closed ∧
      world.gateway.directory.sessions[1]? = some loginLease ∧
      1 ∈ world.gateway.directory.capacity loginIdentity.realmKey ∧
      world.gateway.directory.single loginIdentity.playerKey = some 1 := by
  obtain ⟨previous, consuming⟩ := login_consuming
  have waiting := (consuming.mono (fun _ _ _ => trivial)).take (.cancel _ rfl) trivial
  have closed := waiting.take (.leave rfl) trivial
  refine ⟨_, closed, absent_new 1, rfl, ?_, ?_, ?_⟩
  · exact (sessions_register _ loginLease _ 1).trans (if_pos rfl)
  · exact Finset.mem_insert_self _ _
  · exact single_register_kick _ loginLease

end Login

end ServeWorld

end Elura
