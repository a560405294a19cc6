import Elura.Core.SessionControl
import Elura.Gateway.Presence

/-!
The sessions of one gateway server: their handles, each with a bounded push queue and a disconnect
signal, and the index of their identities. A loop over sessions stops at the first one that
refuses.
-/

namespace Elura

open Fallible List

open Std (ExtTreeMap)

structure PushQueue where
  frames : List Frame
  capacity : Nat
  closed : Bool
  deriving DecidableEq, Repr

def PushQueue.Room (queue : PushQueue) : Prop :=
  queue.closed = false ∧ queue.frames.length < queue.capacity

instance (queue : PushQueue) : Decidable queue.Room :=
  inferInstanceAs (Decidable (_ ∧ _))

/-- `try_send`, with the error its callers turn every failure into. -/
def PushQueue.trySend (queue : PushQueue) (frame : Frame) : Except Error Unit × PushQueue :=
  if queue.Room then (.ok (), { queue with frames := queue.frames ++ [frame] })
  else (.error .queueFull, queue)

/-- `watched` says that the session's `serve` still listens to the disconnect
signal. -/
structure SessionHandle where
  pushes : PushQueue
  disconnect : Bool
  watched : Bool
  authenticated : Bool
  deriving DecidableEq, Repr

def SessionHandle.sendDisconnect (handle : SessionHandle) : Except Error Unit × SessionHandle :=
  if handle.watched then (.ok (), { handle with disconnect := true })
  else (.error .unavailable, handle)

def sessionControlFrame (payload : List UInt8) : Frame where
  kind := .push
  flags := 0
  route := routeSessionControl
  requestId := 0
  sequence := 0
  payload

def enqueueSessionControl (pushes : PushQueue) (action : SessionControlAction) (reason : String) :
    Except Error Unit × PushQueue :=
  match SessionControl.new action reason >>= SessionControl.encodeFramePayload with
  | .error error => (.error error, pushes)
  | .ok payload => pushes.trySend (sessionControlFrame payload)

def disconnectHandleWithAction (action : SessionControlAction) (reason : String)
    (handle : SessionHandle) : Except Error Unit × SessionHandle :=
  let notification := enqueueSessionControl handle.pushes action reason
  let disconnected := { handle with pushes := notification.2 }.sendDisconnect
  (notification.1 >>= fun _ => disconnected.1, disconnected.2)

def disconnectHandle (reason : String) (handle : SessionHandle) :
    Except Error Unit × SessionHandle :=
  disconnectHandleWithAction .kick reason handle

theorem enqueueSessionControl_eq {action : SessionControlAction} {reason : String}
    (named : action ≠ .unspecified) (short : reason.utf8ByteSize ≤ 256) :
    ∃ frame, ∀ pushes, enqueueSessionControl pushes action reason = pushes.trySend frame := by
  have valid : SessionControl.validate { action, reason } = .ok () := by
    simp [SessionControl.validate, named, Nat.not_lt.mpr short]
  have encoded : ∃ payload, (SessionControl.new action reason >>=
      SessionControl.encodeFramePayload) = .ok payload := by
    have made : SessionControl.new action reason = .ok { action, reason } := by
      simp only [SessionControl.new, valid]
      rfl
    rw [made]
    change ∃ payload, SessionControl.encodeFramePayload { action, reason } = .ok payload
    unfold SessionControl.encodeFramePayload
    rw [valid]
    exact ⟨_, rfl⟩
  obtain ⟨payload, encoded⟩ := encoded
  refine ⟨sessionControlFrame payload, fun pushes => ?_⟩
  simp only [enqueueSessionControl, encoded]

def SessionHandle.Accepts (handle : SessionHandle) : Prop :=
  handle.watched = true ∧ handle.pushes.Room

theorem disconnect_ok_iff {action : SessionControlAction} {reason : String}
    (named : action ≠ .unspecified) (short : reason.utf8ByteSize ≤ 256) (handle : SessionHandle) :
    (disconnectHandleWithAction action reason handle).1 = .ok () ↔ handle.Accepts := by
  obtain ⟨frame, sends⟩ := enqueueSessionControl_eq named short
  simp only [disconnectHandleWithAction, sends, PushQueue.trySend, SessionHandle.sendDisconnect,
    SessionHandle.Accepts]
  by_cases room : handle.pushes.Room
  · cases watched : handle.watched with
    | true | false => simp [room, bind, Except.bind]
  · simp [room, bind, Except.bind]

theorem disconnect_signal (action : SessionControlAction) (reason : String)
    (handle : SessionHandle) :
    (disconnectHandleWithAction action reason handle).2.disconnect =
      (handle.watched || handle.disconnect) := by
  simp only [disconnectHandleWithAction]
  cases handle.watched with
  | true | false => rfl

structure SessionIndex where
  identities : ExtTreeMap Uuid Identity
  users : PlayerKey → Finset Uuid
  sound : ∀ session user, session ∈ users user ↔
    ∃ identity, identities[session]? = some identity ∧ identity.playerKey = user

namespace SessionIndex

def new : SessionIndex where
  identities := ∅
  users := fun _ => ∅
  sound := by simp

def removeUser (users : PlayerKey → Finset Uuid) (session : Uuid) (identity : Identity) :
    PlayerKey → Finset Uuid :=
  Function.update users identity.playerKey ((users identity.playerKey).erase session)

theorem mem_removeUser_of_found (index : SessionIndex) {session : Uuid} {identity : Identity}
    (found : index.identities[session]? = some identity) (other : Uuid) (user : PlayerKey) :
    other ∈ removeUser index.users session identity user ↔
      other ≠ session ∧ other ∈ index.users user := by
  unfold removeUser
  by_cases own : user = identity.playerKey
  · subst own
    simp
  · rw [Function.update_of_ne own]
    refine ⟨fun member => ⟨?_, member⟩, And.right⟩
    rintro rfl
    obtain ⟨known, same, owner⟩ := (index.sound other user).mp member
    cases found.symm.trans same
    exact own owner.symm

def otherUsers (index : SessionIndex) (session : Uuid) : PlayerKey → Finset Uuid :=
  match index.identities[session]? with
  | some previous => removeUser index.users session previous
  | none => index.users

theorem mem_otherUsers (index : SessionIndex) (session other : Uuid) (user : PlayerKey) :
    other ∈ index.otherUsers session user ↔ other ≠ session ∧ other ∈ index.users user := by
  unfold otherUsers
  cases found : index.identities[session]? with
  | some => exact index.mem_removeUser_of_found found other user
  | none =>
    refine ⟨fun member => ⟨?_, member⟩, fun both => both.2⟩
    rintro rfl
    obtain ⟨known, same, _⟩ := (index.sound other user).mp member
    cases found.symm.trans same

def insert (index : SessionIndex) (session : Uuid) (identity : Identity) : SessionIndex where
  identities := index.identities.insert session identity
  users := Function.update (index.otherUsers session) identity.playerKey
    (Insert.insert session (index.otherUsers session identity.playerKey))
  sound := by
    intro other user
    rw [OrderedMap.getElem?_insert_ite]
    by_cases same : session = other
    · subst same
      by_cases owner : user = identity.playerKey
      · subst owner
        simp
      · simp [Function.update_of_ne owner, mem_otherUsers, Ne.symm owner]
    · rw [if_neg same, ← index.sound other user]
      by_cases owner : user = identity.playerKey
      · subst owner
        simp [mem_otherUsers, Ne.symm same]
      · simp [Function.update_of_ne owner, mem_otherUsers, Ne.symm same]

def remove (index : SessionIndex) (session : Uuid) : SessionIndex where
  identities := index.identities.erase session
  users := index.otherUsers session
  sound := by
    intro other user
    rw [OrderedMap.getElem?_erase_ite, mem_otherUsers]
    by_cases same : session = other
    · simp [same]
    · rw [if_neg same, ← index.sound other user]
      exact and_iff_right (Ne.symm same)

end SessionIndex

/-- What the connections of one gateway share about their sessions. `published`
holds the control events handed to the session-control transport, newest first. -/
structure GatewayServer where
  sessions : ExtTreeMap Uuid SessionHandle
  index : SessionIndex
  topics : String → Finset Uuid
  online : Option MemoryOnlineDirectory
  published : List SessionControlEvent

theorem exists_first {α : Type} {property : α → Prop} {list : List α} {element : α}
    (member : element ∈ list) (lacks : ¬property element) :
    ∃ earlier first later, list = earlier ++ first :: later ∧ (∀ other ∈ earlier, property other) ∧
      ¬property first := by
  classical
  have present : (list.find? (fun other => decide (¬property other))).isSome = true :=
    find?_isSome.mpr ⟨element, member, decide_eq_true lacks⟩
  obtain ⟨first, found⟩ := Option.isSome_iff_exists.mp present
  obtain ⟨bad, earlier, later, split, before⟩ := find?_eq_some_iff_append.mp found
  refine ⟨earlier, first, later, split, fun other among => ?_, of_decide_eq_true bad⟩
  simpa using before other among

namespace GatewayServer

def Told (server : GatewayServer) (session : Uuid) : Prop :=
  ∃ handle, server.sessions[session]? = some handle ∧ handle.disconnect = true

def Accepts (server : GatewayServer) (session : Uuid) : Prop :=
  ∃ handle, server.sessions[session]? = some handle ∧ handle.Accepts

section Each

variable (operation : SessionHandle → Except Error Unit × SessionHandle)

def onSession (session : Uuid) : Fallible GatewayServer Error Unit := do
  let server ← get
  match server.sessions[session]? with
  | none => return ()
  | some handle =>
    set { server with sessions := server.sessions.insert session (operation handle).2 }
    liftM (operation handle).1

def onEach : List Uuid → Fallible GatewayServer Error Nat
  | [] => return 0
  | session :: rest => do
      onSession operation session
      let delivered ← onEach rest
      return delivered + 1

end Each

section Loop

variable {operation : SessionHandle → Except Error Unit × SessionHandle}
  {server : GatewayServer} {session : Uuid} {handle : SessionHandle}

def served (server : GatewayServer)
    (operation : SessionHandle → Except Error Unit × SessionHandle) (session : Uuid)
    (handle : SessionHandle) : GatewayServer :=
  { server with sessions := server.sessions.insert session (operation handle).2 }

theorem sessions_served (other : Uuid) :
    (server.served operation session handle).sessions[other]? =
      if session = other then some (operation handle).2 else server.sessions[other]? :=
  OrderedMap.getElem?_insert_ite _ _ _ _

theorem onSession_eq (found : server.sessions[session]? = some handle) :
    (onSession operation session).call server =
      ((operation handle).1, server.served operation session handle) := by
  simp only [onSession, call_bind, call_get, found, call_set, call_liftExcept, served]

structure Served (operation : SessionHandle → Except Error Unit × SessionHandle)
    (sessions : List Uuid) (before after : GatewayServer) : Prop where
  done : ∀ session ∈ sessions, ∀ handle, before.sessions[session]? = some handle →
    after.sessions[session]? = some (operation handle).2
  others : ∀ session, session ∉ sessions → after.sessions[session]? = before.sessions[session]?
  rest : after = { before with sessions := after.sessions }

theorem Served.nil (server : GatewayServer) : Served operation [] server server :=
  ⟨fun _ member => absurd member List.not_mem_nil, fun _ _ => rfl, rfl⟩

theorem Served.cons {sessions : List Uuid} {after : GatewayServer}
    (found : server.sessions[session]? = some handle) (fresh : session ∉ sessions)
    (tail : Served operation sessions (server.served operation session handle) after) :
    Served operation (session :: sessions) server after := by
  refine ⟨?_, ?_, ?_⟩
  · intro other member known present
    rcases mem_cons.mp member with rfl | later
    · rw [tail.others _ fresh, sessions_served, if_pos rfl]
      rw [found] at present
      cases present
      rfl
    · have different : session ≠ other := fun same => fresh (same ▸ later)
      exact tail.done other later known (by rwa [sessions_served, if_neg different])
  · intro other absent
    rw [mem_cons, not_or] at absent
    rw [tail.others other absent.2, sessions_served, if_neg (Ne.symm absent.1)]
  · rw [tail.rest]
    rfl

theorem onEach_append {sessions : List Uuid} (distinct : sessions.Nodup)
    (accepts : ∀ session ∈ sessions, ∃ handle, server.sessions[session]? = some handle ∧
      (operation handle).1 = .ok ()) (tail : List Uuid) :
    ∃ after, Served operation sessions server after ∧
      (onEach operation (sessions ++ tail)).call server =
        (((onEach operation tail).call after).1.map (sessions.length + ·),
          ((onEach operation tail).call after).2) := by
  induction sessions generalizing server with
  | nil =>
    refine ⟨server, .nil server, ?_⟩
    rw [nil_append]
    rcases (onEach operation tail).call server with ⟨error | delivered, after⟩
    · simp [Except.map]
    · simp [Except.map]
  | cons session sessions ih =>
    obtain ⟨fresh, distinct⟩ := nodup_cons.mp distinct
    obtain ⟨handle, found, accepted⟩ := accepts session mem_cons_self
    have later : ∀ other ∈ sessions, ∃ known,
        (server.served operation session handle).sessions[other]? = some known ∧
          (operation known).1 = .ok () := by
      intro other member
      have different : session ≠ other := fun same => fresh (same ▸ member)
      obtain ⟨known, present, ready⟩ := accepts other (mem_cons_of_mem _ member)
      exact ⟨known, by rwa [sessions_served, if_neg different], ready⟩
    obtain ⟨after, served, outcome⟩ := ih distinct later
    refine ⟨after, served.cons found fresh, ?_⟩
    rw [cons_append, onEach, call_bind, onSession_eq found, accepted]
    simp only [call_bind, outcome]
    rcases (onEach operation tail).call after with ⟨error | delivered, last⟩
    · simp [Except.map]
    · simp only [Except.map, call_pure, length_cons, Prod.mk.injEq, Except.ok.injEq, and_true]
      omega

theorem onEach_ok {sessions : List Uuid} (distinct : sessions.Nodup)
    (accepts : ∀ session ∈ sessions, ∃ handle, server.sessions[session]? = some handle ∧
      (operation handle).1 = .ok ()) :
    ∃ after, (onEach operation sessions).call server = (.ok sessions.length, after) ∧
      Served operation sessions server after := by
  obtain ⟨after, served, outcome⟩ := onEach_append distinct accepts []
  rw [append_nil] at outcome
  exact ⟨after, outcome, served⟩

theorem onEach_stops {earlier later : List Uuid} {error : Error}
    (distinct : (earlier ++ session :: later).Nodup)
    (accepts : ∀ session ∈ earlier, ∃ handle, server.sessions[session]? = some handle ∧
      (operation handle).1 = .ok ())
    (found : server.sessions[session]? = some handle) (refused : (operation handle).1 = .error error) :
    ∃ after, (onEach operation (earlier ++ session :: later)).call server = (.error error, after) ∧
      Served operation (earlier ++ [session]) server after := by
  obtain ⟨first, _, apart⟩ := nodup_append.mp distinct
  have fresh : session ∉ earlier := fun member => apart session member session mem_cons_self rfl
  obtain ⟨middle, served, outcome⟩ := onEach_append first accepts (session :: later)
  have present : middle.sessions[session]? = some handle := by
    rw [served.others session fresh, found]
  refine ⟨middle.served operation session handle, ?_, ?_⟩
  · rw [outcome, onEach, call_bind, onSession_eq present, refused]
    rfl
  · refine ⟨?_, ?_, ?_⟩
    · intro other member known seen
      rw [sessions_served]
      split
      · rename_i same
        subst same
        cases found.symm.trans seen
        rfl
      · rename_i different
        rcases mem_append.mp member with old | new
        · exact served.done other old known seen
        · exact absurd (mem_singleton.mp new).symm different
    · intro other absent
      simp only [mem_append, mem_singleton, not_or] at absent
      rw [sessions_served, if_neg (Ne.symm absent.2), served.others other absent.1]
    · rw [GatewayServer.served, served.rest]

end Loop

section Sample

def sampleHandle (frames : List Frame) : SessionHandle where
  pushes := { frames, capacity := 1, closed := false }
  disconnect := false
  watched := true
  authenticated := true

def sampleServer (first second : List Frame) : GatewayServer where
  sessions := (Std.ExtTreeMap.empty.insert 2 (sampleHandle second)).insert 1 (sampleHandle first)
  index := (SessionIndex.new.insert 2 loginIdentity).insert 1 loginIdentity
  topics := fun _ => ∅
  online := none
  published := []

theorem sample_session (first second : List Frame) (session : Uuid) :
    (sampleServer first second).sessions[session]? =
      if 1 = session then some (sampleHandle first)
      else if 2 = session then some (sampleHandle second) else none := by
  simp only [sampleServer, OrderedMap.getElem?_insert_ite]
  rfl

def ascending : HashOrder Uuid where
  list := fun members => members.sort
  nodup := fun members => members.sort_nodup _
  mem := fun members _ => Finset.mem_sort _

theorem sample_listed (first second : List Frame) :
    ascending.list ((sampleServer first second).index.users loginIdentity.playerKey) = [1, 2] := by
  have members : (sampleServer first second).index.users loginIdentity.playerKey = {1, 2} := by
    change ((SessionIndex.new.insert 2 loginIdentity).insert 1 loginIdentity).users
      loginIdentity.playerKey = {1, 2}
    decide
  rw [members]
  change Finset.sort (insert 1 {2} : Finset Uuid) = [1, 2]
  rw [Finset.sort_insert _ (by decide) (by decide), Finset.sort_singleton]

end Sample

end GatewayServer

end Elura
