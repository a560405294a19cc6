import Elura.Gateway.Connection
import Elura.Gateway.PushDelivery
import Elura.Gateway.Revocation

/-!
What a login sends to other sessions: an event for the session-control transport and, for the
session it has displaced, a disconnect signal or a push.
-/

namespace Elura

open Fallible List

open Std (ExtTreeMap)

namespace GatewayServer

def kickRequest (identity : Identity) (traceId : String) (session : Uuid) : PushRequest where
  regionId := identity.regionId
  realmId := identity.realmId
  target := .disconnect session
  route := 0
  sequence := 0
  traceId
  payload := "duplicate_login".toUTF8.data.toList

def loginEvent (identity : Identity) (session : Uuid) : SessionControlEvent where
  kind := .login
  regionId := identity.regionId
  realmId := identity.realmId
  userId := identity.userId
  generation := identity.generation
  sessionId := some session
  keepSessionId := some session
  reason := "new login"

/-- The loop of `kick_previous`. `sent` says which pushes are published. -/
def kickEach (request : Uuid → PushRequest) (sent : Uuid → Bool) :
    List Uuid → GatewayServer × List PushRequest → GatewayServer × List PushRequest
  | [], state => state
  | session :: rest, (server, pushes) =>
    if session ∈ server.sessions then
      kickEach request sent rest
        (((onSession (disconnectHandle "duplicate_login") session).call server).2, pushes)
    else if sent session then kickEach request sent rest (server, request session :: pushes)
    else kickEach request sent rest (server, pushes)

end GatewayServer

def ConnectionContext.kickPrevious (context : ConnectionContext) (previous : List Uuid)
    (identity : Identity) (traceId : String) (sent : Uuid → Bool)
    (state : GatewayServer × List PushRequest) : GatewayServer × List PushRequest :=
  if previous = [] ∨ ¬context.online.any (·.duplicateLogin = .kickExisting) then state
  else GatewayServer.kickEach (GatewayServer.kickRequest identity traceId) sent previous state

namespace GatewayServer

structure Signals (chosen : Uuid → Prop) (before after : GatewayServer) : Prop where
  index : after.index = before.index
  published : after.published = before.published
  others : ∀ session, ¬chosen session → after.sessions[session]? = before.sessions[session]?
  absent : ∀ session : Uuid, before.sessions[session]? = none → after.sessions[session]? = none
  kept : ∀ (session : Uuid) handle, before.sessions[session]? = some handle →
    ∃ later, after.sessions[session]? = some later ∧ later.watched = handle.watched ∧
      (handle.disconnect = true → later.disconnect = true)

namespace Signals

variable {chosen wider : Uuid → Prop} {before middle after : GatewayServer}

theorem refl (server : GatewayServer) : Signals chosen server server where
  index := rfl
  published := rfl
  others := fun _ _ => rfl
  absent := fun _ none_ => none_
  kept := fun _ handle found => ⟨handle, found, rfl, id⟩

theorem mono (signals : Signals chosen before after)
    (weaker : ∀ session, chosen session → wider session) : Signals wider before after where
  index := signals.index
  published := signals.published
  others := fun session other => signals.others session (mt (weaker session) other)
  absent := signals.absent
  kept := signals.kept

theorem trans (first : Signals chosen before middle) (second : Signals chosen middle after) :
    Signals chosen before after where
  index := second.index.trans first.index
  published := second.published.trans first.published
  others := fun session other =>
    (second.others session other).trans (first.others session other)
  absent := fun session none_ => second.absent session (first.absent session none_)
  kept := fun session handle found => by
    obtain ⟨between, known, watched, signalled⟩ := first.kept session handle found
    obtain ⟨later, present, listening, still⟩ := second.kept session between known
    exact ⟨later, present, listening.trans watched, fun was => still (signalled was)⟩

theorem told (signals : Signals chosen before after) {session : Uuid}
    (was : before.Told session) : after.Told session := by
  obtain ⟨handle, found, signalled⟩ := was
  obtain ⟨later, known, _, still⟩ := signals.kept session handle found
  exact ⟨later, known, still signalled⟩

theorem told_cases (signals : Signals chosen before after) {session : Uuid}
    (now : after.Told session) : before.Told session ∨ chosen session := by
  by_cases among : chosen session
  · exact .inr among
  · obtain ⟨handle, found, signalled⟩ := now
    rw [signals.others session among] at found
    exact .inl ⟨handle, found, signalled⟩

end Signals

section Signalling

variable {order : HashOrder Uuid} {server before after : GatewayServer}
  {action : SessionControlAction} {reason : String} {session : Uuid}
variable {sent : Uuid → Bool} {previous : List Uuid} {pushes : List PushRequest}
theorem Served.signals {sessions : List Uuid}
    (served : Served (disconnectHandleWithAction action reason) sessions before after)
    (present : ∀ session ∈ sessions, session ∈ before.sessions) :
    Signals (· ∈ sessions) before after where
  index := by rw [served.rest]
  published := by rw [served.rest]
  others := served.others
  absent := fun session none_ => by
    have outside : session ∉ sessions := by
      intro member
      have known := ExtTreeMap.isSome_getElem?_iff_mem.mpr (present session member)
      rw [none_] at known
      cases known
    rw [served.others session outside, none_]
  kept := fun session handle found => by
    by_cases among : session ∈ sessions
    · refine ⟨_, served.done session among handle found, ?_, ?_⟩
      · simp only [disconnectHandleWithAction, SessionHandle.sendDisconnect]
        split <;> rfl
      · intro was
        rw [disconnect_signal, was, Bool.or_true]
    · exact ⟨handle, by rw [served.others session among, found], rfl, id⟩

theorem handle_signals (order : HashOrder Uuid) (event : SessionControlEvent)
    (server : GatewayServer) :
    Signals (server.Concerned event) server ((handle order event).call server).2 := by
  have local_ {sessions : List Uuid} (among : ∀ session ∈ sessions,
      session ∈ server.selected order event) :
      (∀ session ∈ sessions, session ∈ server.sessions) ∧
        ∀ session, session ∈ sessions → server.Concerned event session :=
    ⟨fun session member => ((mem_selected order _ _ _).mp (among session member)).1,
      fun session member => (mem_selected order _ _ _).mp (among session member)⟩
  rw [handle, Revocation.call_discard]
  cases valid : event.validate with
  | error =>
    simp only [applySessionControlLocal, valid]
    exact .refl server
  | ok =>
    by_cases every : ∀ session, server.Concerned event session → server.Accepts session
    · obtain ⟨after, outcome, served⟩ := @applySessionControlLocal_ok order _ _ valid every
      rw [outcome]
      obtain ⟨present, concerned⟩ := local_ (fun session member => member)
      exact (served.signals present).mono concerned
    · push Not at every
      obtain ⟨session, among, refuses⟩ := every
      obtain ⟨earlier, first, later, split, before, bad⟩ :=
        exists_first ((mem_selected order _ _ _).mpr among) refuses
      obtain ⟨error, after, outcome, served⟩ :=
        applySessionControlLocal_stops valid split before bad
      rw [outcome]
      obtain ⟨present, concerned⟩ := @local_ (earlier ++ [first]) (fun session member => by
        rw [split]
        simp only [mem_append, mem_cons, not_mem_nil, or_false] at member ⊢
        exact member.imp_right .inl)
      exact (served.signals present).mono concerned

theorem onSession_signals (action : SessionControlAction) (reason : String) (session : Uuid)
    (server : GatewayServer) :
    Signals (· = session) server
      ((onSession (disconnectHandleWithAction action reason) session).call server).2 := by
  cases found : server.sessions[session]? with
  | none =>
    simp only [onSession, call_bind, call_get, found]
    exact .refl server
  | some handle =>
    rw [onSession_eq found]
    have served : Served (disconnectHandleWithAction action reason) [session] server
        (server.served (disconnectHandleWithAction action reason) session handle) :=
      Served.cons found not_mem_nil (.nil _)
    refine (served.signals ?_).mono (fun other member => mem_singleton.mp member)
    intro other member
    rw [mem_singleton.mp member, ← ExtTreeMap.isSome_getElem?_iff_mem, found]
    rfl

variable {handle : SessionHandle}
variable (text : List UInt8 → String)

theorem onSession_told (found : server.sessions[session]? = some handle)
    (watched : handle.watched = true) :
    ((onSession (disconnectHandleWithAction action reason) session).call server).2.Told session := by
  rw [onSession_eq found]
  refine ⟨_, by rw [sessions_served, if_pos rfl], ?_⟩
  rw [disconnect_signal, watched, Bool.true_or]

/-- A push that disconnects a session finds it among the authenticated sessions of
the realm or does nothing. -/
theorem deliverInner_disconnect {request : PushRequest}
    (valid : request.validate = .ok ()) (kicks : request.target = .disconnect session)
    (server : GatewayServer) :
    ((deliverInner order text request).call server).2 =
      if ¬server.index.identities[session]?.any (inRealm request.regionId request.realmId) ∨
          session ∉ server.sessions then server
      else ((onSession (disconnectHandle (text request.payload)) session).call server).2 := by
  simp only [deliverInner, call_bind, call_liftExcept, valid, kicks, call_get, call_ite]
  split
  · rfl
  · rcases (onSession (disconnectHandle (text request.payload)) session).call server with
      ⟨error | value, after⟩
    · rfl
    · rfl

theorem deliverInner_signals {request : PushRequest}
    (kicks : request.target = .disconnect session) (server : GatewayServer) :
    Signals (· = session) server ((deliverInner order text request).call server).2 := by
  cases valid : request.validate with
  | error =>
    simp only [deliverInner, valid]
    exact .refl server
  | ok =>
    rw [deliverInner_disconnect text valid kicks]
    split
    · exact .refl server
    · exact onSession_signals .kick (text request.payload) session server

theorem kickEach_signals (request : Uuid → PushRequest) (sent : Uuid → Bool) (previous : List Uuid)
    (server : GatewayServer) (pushes : List PushRequest) :
    Signals (· ∈ previous) server (kickEach request sent previous (server, pushes)).1 := by
  induction previous generalizing server pushes with
  | nil => exact .refl server
  | cons session rest ih =>
    have wider (other : Uuid) (member : other ∈ rest) : other ∈ session :: rest :=
      mem_cons_of_mem session member
    unfold kickEach
    split
    · have first := (onSession_signals .kick "duplicate_login" session server).mono
        (fun other same => (same ▸ mem_cons_self : other ∈ session :: rest))
      exact first.trans ((ih _ _).mono wider)
    · split
      all_goals exact (ih _ _).mono wider

theorem kickEach_told {request : Uuid → PushRequest} (member : session ∈ previous)
    (found : server.sessions[session]? = some handle) (watched : handle.watched = true) :
    (kickEach request sent previous (server, pushes)).1.Told session := by
  induction previous generalizing server pushes handle with
  | nil => exact absurd member not_mem_nil
  | cons first rest ih =>
    unfold kickEach
    split
    · rename_i local_
      by_cases same : session = first
      · subst same
        exact (kickEach_signals _ _ _ _ _).told (onSession_told found watched)
      · have later := (mem_cons.mp member).resolve_left same
        obtain ⟨kept, known, listening, _⟩ :=
          (onSession_signals .kick "duplicate_login" first server).kept session handle found
        exact ih later known (listening.trans watched)
    · rename_i elsewhere
      have later : session ∈ rest := by
        refine (mem_cons.mp member).resolve_left ?_
        rintro rfl
        refine elsewhere (ExtTreeMap.isSome_getElem?_iff_mem.mp ?_)
        rw [found]
        rfl
      split
      all_goals exact ih later found watched

theorem mem_kickEach_pushes {request : Uuid → PushRequest} {push : PushRequest}
    (member : push ∈ pushes) : push ∈ (kickEach request sent previous (server, pushes)).2 := by
  induction previous generalizing server pushes with
  | nil => exact member
  | cons _ _ ih =>
    unfold kickEach
    split
    · exact ih member
    · split
      · exact ih (mem_cons_of_mem _ member)
      · exact ih member

theorem kickEach_pushes_cases {request : Uuid → PushRequest} {push : PushRequest}
    (member : push ∈ (kickEach request sent previous (server, pushes)).2) :
    push ∈ pushes ∨ ∃ session ∈ previous, push = request session := by
  induction previous generalizing server pushes with
  | nil => exact .inl member
  | cons first rest ih =>
    have wider : (∃ session ∈ rest, push = request session) →
        ∃ session ∈ first :: rest, push = request session := by
      rintro ⟨session, later, same⟩
      exact ⟨session, mem_cons_of_mem first later, same⟩
    unfold kickEach at member
    split at member
    · exact (ih member).imp_right wider
    · split at member
      · rcases ih member with old | new
        · rcases mem_cons.mp old with same | older
          · exact .inr ⟨first, mem_cons_self, same⟩
          · exact .inl older
        · exact .inr (wider new)
      · exact (ih member).imp_right wider

theorem kickEach_pushes {request : Uuid → PushRequest} (member : session ∈ previous)
    (elsewhere : server.sessions[session]? = none) (published : sent session = true) :
    request session ∈ (kickEach request sent previous (server, pushes)).2 := by
  induction previous generalizing server pushes with
  | nil => exact absurd member not_mem_nil
  | cons first rest ih =>
    have outside : session ∉ server.sessions := by
      rw [← ExtTreeMap.isSome_getElem?_iff_mem, elsewhere]
      exact Bool.false_ne_true
    unfold kickEach
    split
    · rename_i local_
      have later : session ∈ rest :=
        (mem_cons.mp member).resolve_left (fun same => outside (same ▸ local_))
      exact ih later
        ((onSession_signals .kick "duplicate_login" first server).absent session elsewhere)
    · by_cases same : session = first
      · subst same
        rw [if_pos published]
        exact mem_kickEach_pushes mem_cons_self
      · have later := (mem_cons.mp member).resolve_left same
        split
        all_goals exact ih later elsewhere

end Signalling

end GatewayServer

theorem ConnectionContext.kickPrevious_signals (context : ConnectionContext)
    (previous : List Uuid) (identity : Identity) (traceId : String) (sent : Uuid → Bool)
    (state : GatewayServer × List PushRequest) :
    GatewayServer.Signals (· ∈ previous) state.1
      (context.kickPrevious previous identity traceId sent state).1 := by
  unfold kickPrevious
  split
  · exact .refl _
  · exact GatewayServer.kickEach_signals _ _ _ _ _

end Elura
