import Elura.Gateway.SessionState

/-!
How a gateway revokes sessions: the local sessions are told to disconnect and then the event is
published. The loop ends with the first notification that does not fit into a push queue.
-/

namespace Elura

open Fallible List

namespace SessionControlEvent

def action (event : SessionControlEvent) : SessionControlAction :=
  match event.kind with
  | .login => .duplicateLogin
  | .forceLogout => .forceLogout
  | .versionChanged => .accountVersionChanged

def selects (event : SessionControlEvent) (session : Uuid) (identity : Identity) : Bool :=
  match event.kind with
  | .login => event.keepSessionId ≠ some session
  | .forceLogout => event.sessionId.all (· = session)
  | .versionChanged => identity.generation < event.generation

end SessionControlEvent

namespace GatewayServer

variable (order : HashOrder Uuid)

def selected (server : GatewayServer) (event : SessionControlEvent) : List Uuid :=
  ((order.list (server.index.users event.playerKey)).filter (fun session =>
    server.index.identities[session]?.any (event.selects session))).filter (· ∈ server.sessions)

def applySessionControlLocal (event : SessionControlEvent) : Fallible GatewayServer Error Nat := do
  liftM event.validate
  let server ← get
  onEach (disconnectHandleWithAction event.action event.reason) (server.selected order event)

/-- `answer` is what the transport says to an event. -/
def publishControl (transport : Option (SessionControlEvent → Except Error Unit))
    (event : SessionControlEvent) : Fallible GatewayServer Error Unit :=
  match transport with
  | none => return ()
  | some answer => do
      modify (fun server => { server with published := event :: server.published })
      liftM (answer event)

def control (transport : Option (SessionControlEvent → Except Error Unit))
    (event : SessionControlEvent) : Fallible GatewayServer Error Nat := do
  liftM event.validate
  let delivered ← applySessionControlLocal order event
  publishControl transport event
  return delivered

def versionChangedEvent (key : PlayerKey) (minimumGeneration : UInt64) (reason : String) :
    SessionControlEvent where
  kind := .versionChanged
  regionId := key.regionId
  realmId := key.realmId
  userId := key.userId
  generation := minimumGeneration
  sessionId := none
  keepSessionId := none
  reason

def forceLogoutEvent (key : PlayerKey) (reason : String) : SessionControlEvent where
  kind := .forceLogout
  regionId := key.regionId
  realmId := key.realmId
  userId := key.userId
  generation := 0
  sessionId := none
  keepSessionId := none
  reason

def revokeAccountVersion (transport : Option (SessionControlEvent → Except Error Unit))
    (key : PlayerKey) (minimumGeneration : UInt64) (reason : String) :
    Fallible GatewayServer Error Nat := do
  if key.regionId = 0 ∨ key.realmId = 0 ∨ key.userId ≤ 0 then
    throw (.invalidConfig "account version key requires region, realm, and user")
  else if minimumGeneration = 0 ∨ isBlank reason ∨ 256 < reason.utf8ByteSize then
    throw (.invalidConfig "account revocation requires a generation and reason")
  else control order transport (versionChangedEvent key minimumGeneration reason)

def forceLogout (transport : Option (SessionControlEvent → Except Error Unit))
    (key : PlayerKey) (reason : String) : Fallible GatewayServer Error Nat :=
  control order transport (forceLogoutEvent key reason)

def handle (event : SessionControlEvent) : Fallible GatewayServer Error Unit := do
  let _ ← applySessionControlLocal order event

def Concerned (server : GatewayServer) (event : SessionControlEvent) (session : Uuid) : Prop :=
  session ∈ server.sessions ∧ ∃ identity, server.index.identities[session]? = some identity ∧
    identity.playerKey = event.playerKey ∧ event.selects session identity = true

theorem mem_selected (server : GatewayServer) (event : SessionControlEvent) (session : Uuid) :
    session ∈ server.selected order event ↔ server.Concerned event session := by
  simp only [selected, mem_filter, order.mem, decide_eq_true_eq, server.index.sound]
  constructor
  · rintro ⟨⟨⟨identity, found, owner⟩, chosen⟩, local_⟩
    rw [found] at chosen
    exact ⟨local_, identity, found, owner, chosen⟩
  · rintro ⟨local_, identity, found, owner, chosen⟩
    exact ⟨⟨⟨identity, found, owner⟩, by rw [found]; exact chosen⟩, local_⟩

theorem nodup_selected (server : GatewayServer) (event : SessionControlEvent) :
    (server.selected order event).Nodup :=
  ((order.nodup _).filter _).filter _

variable {order} {server after : GatewayServer} {event : SessionControlEvent}

theorem action_ne_unspecified (event : SessionControlEvent) : event.action ≠ .unspecified := by
  unfold SessionControlEvent.action
  split <;> exact nofun

theorem applySessionControlLocal_ok (valid : event.validate = .ok ())
    (accepts : ∀ session, server.Concerned event session → server.Accepts session) :
    ∃ after, (applySessionControlLocal order event).call server =
        (.ok (server.selected order event).length, after) ∧
      Served (disconnectHandleWithAction event.action event.reason)
        (server.selected order event) server after := by
  have ready : ∀ session ∈ server.selected order event, ∃ handle,
      server.sessions[session]? = some handle ∧
        (disconnectHandleWithAction event.action event.reason handle).1 = .ok () := by
    intro session member
    obtain ⟨handle, found, accepted⟩ := accepts session ((mem_selected order _ _ _).mp member)
    exact ⟨handle, found, (disconnect_ok_iff (action_ne_unspecified event)
      (SessionControlEvent.reason_of_validate valid) handle).mpr accepted⟩
  obtain ⟨after, outcome, served⟩ := onEach_ok (nodup_selected order server event) ready
  refine ⟨after, ?_, served⟩
  simp only [applySessionControlLocal, call_bind, call_liftExcept, valid, call_get, outcome]

/-- The local half of a revocation up to the first session that does not take it. -/
theorem applySessionControlLocal_stops (valid : event.validate = .ok ()) {earlier later : List Uuid}
    {session : Uuid} (split : server.selected order event = earlier ++ session :: later)
    (accepts : ∀ other ∈ earlier, server.Accepts other) (refuses : ¬server.Accepts session) :
    ∃ error after, (applySessionControlLocal order event).call server = (.error error, after) ∧
      Served (disconnectHandleWithAction event.action event.reason)
        (earlier ++ [session]) server after := by
  have decides := disconnect_ok_iff (action_ne_unspecified event)
    (SessionControlEvent.reason_of_validate valid)
  have local_ : session ∈ server.sessions := by
    have member : session ∈ server.selected order event := by
      rw [split]
      exact mem_append_right _ mem_cons_self
    exact ((mem_selected order _ _ _).mp member).1
  obtain ⟨handle, found⟩ := Option.isSome_iff_exists.mp
    (Std.ExtTreeMap.isSome_getElem?_iff_mem.mpr local_)
  have refused : (disconnectHandleWithAction event.action event.reason handle).1 ≠ .ok () :=
    fun accepted => refuses ⟨handle, found, (decides handle).mp accepted⟩
  cases outcome : (disconnectHandleWithAction event.action event.reason handle).1 with
  | ok => exact absurd outcome refused
  | error error =>
    have distinct := nodup_selected order server event
    rw [split] at distinct
    obtain ⟨after, stopped, served⟩ := onEach_stops distinct
      (fun other among => by
        obtain ⟨known, present, accepted⟩ := accepts other among
        exact ⟨known, present, (decides known).mpr accepted⟩)
      found outcome
    refine ⟨error, after, ?_, served⟩
    simp only [applySessionControlLocal, call_bind, call_liftExcept, valid,
      call_get, split, stopped]

theorem Served.told {sessions : List Uuid} {action : SessionControlAction} {reason : String}
    (served : Served (disconnectHandleWithAction action reason) sessions server after)
    {session : Uuid} (member : session ∈ sessions) {handle : SessionHandle}
    (found : server.sessions[session]? = some handle) (watched : handle.watched = true) :
    after.Told session := by
  refine ⟨_, served.done session member handle found, ?_⟩
  rw [disconnect_signal, watched]
  rfl

def Waiting (server : GatewayServer) (session : Uuid) : Prop :=
  ∃ handle, server.sessions[session]? = some handle ∧ handle.watched = true ∧
    handle.disconnect = false

theorem applySessionControlLocal_told_iff (valid : event.validate = .ok ())
    (waiting : ∀ session, server.Concerned event session → server.Waiting session) :
    (∀ session, server.Concerned event session →
        ((applySessionControlLocal order event).call server).2.Told session) ↔
      ∀ session ∈ (server.selected order event).dropLast, server.Accepts session := by
  constructor
  · intro told session member
    by_contra refuses
    obtain ⟨earlier, first, later, split, accepts, bad⟩ := exists_first member refuses
    obtain ⟨last, ending⟩ : ∃ last, server.selected order event =
        earlier ++ first :: (later ++ [last]) := by
      have nonempty : server.selected order event ≠ [] := by
        intro empty
        rw [empty] at member
        exact absurd member not_mem_nil
      refine ⟨(server.selected order event).getLast nonempty, ?_⟩
      conv_lhs => rw [← dropLast_append_getLast nonempty, split]
      simp
    obtain ⟨error, after, outcome, served⟩ := applySessionControlLocal_stops valid ending accepts bad
    have among : last ∈ server.selected order event := by
      rw [ending]
      simp
    have concerned := (mem_selected order _ _ _).mp among
    have unserved : last ∉ earlier ++ [first] := by
      have distinct := nodup_selected order server event
      rw [ending] at distinct
      simp only [nodup_append, nodup_cons] at distinct
      intro early
      rcases mem_append.mp early with old | new
      · exact distinct.2.2 last old last (by simp) rfl
      · rw [mem_singleton] at new
        exact distinct.2.1.1 (by simp [← new])
    obtain ⟨handle, found, signalled⟩ := told last concerned
    rw [outcome, served.others last unserved] at found
    obtain ⟨known, present, _, unsignalled⟩ := waiting last concerned
    cases found.symm.trans present
    cases signalled.symm.trans unsignalled
  · intro accepts session concerned
    have member := (mem_selected order _ _ _).mpr concerned
    have watched (other : Uuid) (among : server.Concerned event other) : ∃ handle,
        server.sessions[other]? = some handle ∧ handle.watched = true := by
      obtain ⟨handle, found, watched, _⟩ := waiting other among
      exact ⟨handle, found, watched⟩
    obtain ⟨handle, found, watched⟩ := watched session concerned
    by_cases every : ∀ other, server.Concerned event other → server.Accepts other
    · obtain ⟨after, outcome, served⟩ := @applySessionControlLocal_ok order _ _ valid every
      rw [outcome]
      exact served.told member found watched
    · push Not at every
      obtain ⟨last, among, refuses⟩ := every
      have listed := (mem_selected order _ _ _).mpr among
      obtain ⟨earlier, first, later, split, before, bad⟩ := exists_first listed refuses
      have ends : later = [] := by
        by_contra more
        refine bad (accepts first ?_)
        rw [split, dropLast_append_of_ne_nil (cons_ne_nil _ _),
          dropLast_cons_of_ne_nil more]
        simp
      subst ends
      obtain ⟨error, after, outcome, served⟩ := applySessionControlLocal_stops valid split before bad
      rw [outcome]
      exact served.told (by rw [← split]; exact member) found watched

/-- What `control` leaves behind, however it ends. -/
theorem control_state (transport : Option (SessionControlEvent → Except Error Unit))
    (valid : event.validate = .ok ()) :
    ((control order transport event).call server).2 =
      if transport.isSome ∧ ((applySessionControlLocal order event).call server).1.isOk then
        { ((applySessionControlLocal order event).call server).2 with
          published :=
            event :: ((applySessionControlLocal order event).call server).2.published }
      else ((applySessionControlLocal order event).call server).2 := by
  simp only [control, call_bind, call_liftExcept, valid]
  rcases (applySessionControlLocal order event).call server with ⟨error | delivered, after⟩
  · simp [Except.toBool]
  · cases transport with
    | none => simp [publishControl]
    | some answer =>
      simp only [publishControl, call_bind]
      cases answer event with
      | error | ok => simp [Except.toBool]

end GatewayServer

inductive Revocation
  | revokeAccountVersion (key : PlayerKey) (minimumGeneration : UInt64) (reason : String)
  | forceLogout (key : PlayerKey) (reason : String)
  | handle (event : SessionControlEvent)

namespace Revocation

open GatewayServer

variable {revocation : Revocation}

def event : Revocation → SessionControlEvent
  | revokeAccountVersion key minimumGeneration reason =>
    versionChangedEvent key minimumGeneration reason
  | forceLogout key reason => forceLogoutEvent key reason
  | handle event => event

def run (order : HashOrder Uuid) (transport : Option (SessionControlEvent → Except Error Unit)) :
    Revocation → Fallible GatewayServer Error Unit
  | revokeAccountVersion key minimumGeneration reason => do
      let _ ← GatewayServer.revokeAccountVersion order transport key minimumGeneration reason
  | forceLogout key reason => do
      let _ ← GatewayServer.forceLogout order transport key reason
  | handle event => GatewayServer.handle order event

def Valid : Revocation → Prop
  | revokeAccountVersion key minimumGeneration reason => ¬(key.regionId = 0 ∨ key.realmId = 0 ∨
      key.userId ≤ 0) ∧ ¬(minimumGeneration = 0 ∨ isBlank reason ∨ 256 < reason.utf8ByteSize)
  | forceLogout key reason => (forceLogoutEvent key reason).validate = .ok ()
  | handle event => event.validate = .ok () ∧ event.kind ≠ .login

def Publishes : Revocation → Prop
  | handle _ => False
  | _ => True

theorem Valid.event (valid : revocation.Valid) : revocation.event.validate = .ok () := by
  cases revocation with
  | revokeAccountVersion =>
    obtain ⟨known, given⟩ := valid
    simp only [not_or] at known given
    refine if_neg ?_
    rintro (zero | zero | zero | long | ⟨_, zero⟩)
    · exact known.1 zero
    · exact known.2.1 zero
    · exact known.2.2 zero
    · exact given.2.2 long
    · exact given.1 zero
  | forceLogout => exact valid
  | handle => exact valid.1

theorem call_discard {α : Type} (method : Fallible GatewayServer Error α) (server : GatewayServer) :
    (Fallible.call (do let _ ← method) server).2 = (method.call server).2 := by
  rw [call_bind]
  rcases method.call server with ⟨error | value, after⟩ <;> rfl

variable {order : HashOrder Uuid}
variable (transport : Option (SessionControlEvent → Except Error Unit))

theorem run_handle
    (silent : ¬revocation.Publishes) (server : GatewayServer) :
    ((revocation.run order transport).call server).2 =
      ((applySessionControlLocal order revocation.event).call server).2 := by
  cases revocation with
  | handle => exact call_discard _ server
  | _ => exact absurd trivial silent

theorem run_control
    (valid : revocation.Valid) (publishes : revocation.Publishes) (server : GatewayServer) :
    ((revocation.run order transport).call server).2 =
      ((control order transport revocation.event).call server).2 := by
  cases revocation with
  | revokeAccountVersion =>
    simp only [run, call_discard, GatewayServer.revokeAccountVersion, if_neg valid.1,
      if_neg valid.2]
    rfl
  | forceLogout => exact call_discard _ server
  | handle => exact publishes.elim

theorem run_told
    (valid : revocation.Valid) (server : GatewayServer) (session : Uuid) :
    ((revocation.run order transport).call server).2.Told session ↔
      ((applySessionControlLocal order revocation.event).call server).2.Told session := by
  by_cases publishes : revocation.Publishes
  · rw [run_control transport valid publishes, control_state transport valid.event]
    split
    · exact Iff.rfl
    · exact Iff.rfl
  · rw [run_handle transport publishes]

/-- A revocation reaches every session it concerns and the other gateways exactly if
every one of the sessions takes the notification. The sessions alone are reached
exactly if all but the last one that is visited take it. -/
theorem revocation_reaches_iff {revocation : Revocation} (valid : revocation.Valid)
    (transport : Option (SessionControlEvent → Except Error Unit)) (server : GatewayServer) :
    (revocation.Publishes → transport.isSome →
      ((∀ session, server.Concerned revocation.event session →
          ((revocation.run order transport).call server).2.Told session) ∧
        ((revocation.run order transport).call server).2.published =
          revocation.event :: server.published ↔
      ∀ session, server.Concerned revocation.event session → server.Accepts session)) ∧
    ((∀ session, server.Concerned revocation.event session → server.Waiting session) →
      ((∀ session, server.Concerned revocation.event session →
          ((revocation.run order transport).call server).2.Told session) ↔
        ∀ session ∈ (server.selected order revocation.event).dropLast, server.Accepts session)) := by
  refine ⟨fun publishes connected => ⟨?_, fun accepts => ?_⟩, fun waiting => ?_⟩
  · rintro ⟨_, published⟩ session concerned
    by_contra refuses
    obtain ⟨earlier, first, later, split, before, bad⟩ :=
      exists_first ((mem_selected order _ _ _).mpr concerned) refuses
    obtain ⟨error, after, outcome, served⟩ :=
      applySessionControlLocal_stops valid.event split before bad
    rw [run_control transport valid publishes, control_state transport valid.event, outcome,
      if_neg (by simp [Except.toBool]), served.rest] at published
    exact cons_ne_self _ _ published.symm
  · obtain ⟨after, outcome, served⟩ := @applySessionControlLocal_ok order _ _ valid.event accepts
    refine ⟨fun session concerned => ?_, ?_⟩
    · rw [run_told transport valid, outcome]
      obtain ⟨handle, found, watched, _⟩ := accepts session concerned
      exact served.told ((mem_selected order _ _ _).mpr concerned) found watched
    · rw [run_control transport valid publishes, control_state transport valid.event, outcome,
        if_pos ⟨connected, rfl⟩, served.rest]
  · rw [← @applySessionControlLocal_told_iff order _ _ valid.event waiting]
    exact forall₂_congr (fun session _ => run_told transport valid server session)

section Sample

def sampleRevocation : Revocation :=
  .revokeAccountVersion loginIdentity.playerKey 2 "credentials rotated"

theorem sample_valid : sampleRevocation.Valid := by
  refine ⟨?_, ?_⟩ <;> decide

theorem sample_concerned (first second : List Frame) (session : Uuid) :
    (sampleServer first second).Concerned sampleRevocation.event session ↔
      session = 1 ∨ session = 2 := by
  rw [Concerned, ← Std.ExtTreeMap.isSome_getElem?_iff_mem, sample_session]
  constructor
  · rintro ⟨present, _⟩
    split at present
    · rename_i same
      exact .inl same.symm
    · split at present
      · rename_i same
        exact .inr same.symm
      · cases present
  · rintro (rfl | rfl)
    all_goals exact ⟨rfl, loginIdentity, rfl, rfl, by decide⟩

theorem sample_reached :
    (∀ session, (sampleServer [] []).Concerned sampleRevocation.event session →
        ((sampleRevocation.run ascending (some fun _ => .ok ())).call
          (sampleServer [] [])).2.Told session) ∧
      ((sampleRevocation.run ascending (some fun _ => .ok ())).call
        (sampleServer [] [])).2.published = [sampleRevocation.event] := by
  refine ((revocation_reaches_iff sample_valid (some fun _ => .ok ()) (sampleServer [] [])).1 trivial
    rfl).mpr ?_
  intro session concerned
  rcases (sample_concerned [] [] session).mp concerned with rfl | rfl
  · exact ⟨sampleHandle [], sample_session [] [] 1, rfl, rfl, Nat.one_pos⟩
  · exact ⟨sampleHandle [], sample_session [] [] 2, rfl, rfl, Nat.one_pos⟩

theorem sample_selected (first second : List Frame) :
    (sampleServer first second).selected ascending sampleRevocation.event = [1, 2] := by
  have listed : ascending.list ((sampleServer first second).index.users
      sampleRevocation.event.playerKey) = [1, 2] := sample_listed first second
  have kept (session : Uuid) (member : session ∈ [1, 2]) :
      (sampleServer first second).Concerned sampleRevocation.event session :=
    (sample_concerned first second session).mpr (by simpa using member)
  have chosen : [1, 2].filter (fun session => (sampleServer first second).index.identities[session]?.any
      (sampleRevocation.event.selects session)) = [1, 2] := by
    refine filter_eq_self.mpr (fun session member => ?_)
    obtain ⟨_, identity, found, _, selects⟩ := kept session member
    rw [found]
    exact selects
  rw [selected, listed]
  exact filter_eq_self.mpr (fun session member => decide_eq_true (kept session member).1)

/-- The queue of the first session is full. The second session would take the
notification, but it hears nothing, and neither do the other gateways. -/
theorem full_queue_stops :
    (sampleServer [sessionControlFrame []] []).Concerned sampleRevocation.event 2 ∧
      (sampleServer [sessionControlFrame []] []).Accepts 2 ∧
      ¬((sampleRevocation.run ascending (some fun _ => .ok ())).call
        (sampleServer [sessionControlFrame []] [])).2.Told 2 ∧
      ((sampleRevocation.run ascending (some fun _ => .ok ())).call
        (sampleServer [sessionControlFrame []] [])).2.published = [] := by
  have refuses : ¬(sampleServer [sessionControlFrame []] []).Accepts 1 := by
    rintro ⟨handle, found, _, _, room⟩
    rw [sample_session] at found
    cases found
    exact absurd room (Nat.lt_irrefl _)
  obtain ⟨error, after, outcome, served⟩ := @applySessionControlLocal_stops ascending
    (sampleServer [sessionControlFrame []] []) sampleRevocation.event sample_valid.event [] [2] 1
    (sample_selected _ _) nofun refuses
  refine ⟨(sample_concerned _ _ _).mpr (.inr rfl),
    ⟨sampleHandle [], sample_session _ _ 2, rfl, rfl, Nat.one_pos⟩, ?_, ?_⟩
  · rw [run_told _ sample_valid, outcome]
    rintro ⟨handle, found, told⟩
    rw [served.others 2 (by decide)] at found
    cases found
    cases told
  · rw [run_control _ sample_valid trivial, control_state _ sample_valid.event, outcome,
      served.rest]
    rfl

end Sample

end Revocation

end Elura
