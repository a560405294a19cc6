import Elura.Core.Push
import Elura.Gateway.SessionState

/-!
How a gateway delivers a push: the frame is put into the queues of the target sessions one after
the other, in the order of a hash set, and the first full queue ends the delivery.
-/

namespace Elura.GatewayServer

open Fallible List

variable (order : HashOrder Uuid)

def inRealm (regionId realmId : UInt32) (identity : Identity) : Bool :=
  identity.regionId = regionId && identity.realmId = realmId

def matchingSessions (server : GatewayServer) (regionId realmId : UInt32) :
    PushTarget → List Uuid
  | .session id =>
    if server.index.identities[id]?.any (inRealm regionId realmId) then [id] else []
  | .user userId => order.list (server.index.users { regionId, realmId, userId })
  | .users userIds => order.list (userIds.foldl (fun sessions userId =>
    sessions ∪ server.index.users { regionId, realmId, userId }) ∅)
  | .topic topic => (order.list (server.topics topic)).filter (fun id =>
    server.index.identities[id]?.any (inRealm regionId realmId))
  | .realm => (order.list server.index.identities.keys.toFinset).filter (fun id =>
    server.index.identities[id]?.any (inRealm regionId realmId))
  | _ => []

def trackTopic (session : Uuid) (group : String) (join : Bool) :
    Fallible GatewayServer Error Unit := do
  let server ← get
  match server.online with
  | none => return ()
  | some directory =>
    let outcome :=
      (MemoryOnlineDirectory.trackGroup session ("topic:" ++ group) join).call directory
    set { server with online := some outcome.2 }
    liftM outcome.1

def updateMembership (regionId realmId : UInt32) (session : Uuid) (group : String) (join : Bool) :
    Fallible GatewayServer Error Unit := do
  let server ← get
  if group = "" ∨ ¬server.index.identities[session]?.any (inRealm regionId realmId) then
    throw .unavailable
  else
    let members := if join then insert session (server.topics group)
      else (server.topics group).erase session
    set { server with topics := Function.update server.topics group members }
    trackTopic session group join

def pushFrame (request : PushRequest) : Frame where
  kind := .push
  flags := 0
  route := request.route
  requestId := 0
  sequence := request.sequence
  payload := request.payload

def pushTo (frame : Frame) (handle : SessionHandle) : Except Error Unit × SessionHandle :=
  ((handle.pushes.trySend frame).1, { handle with pushes := (handle.pushes.trySend frame).2 })

def targets (server : GatewayServer) (request : PushRequest) : List Uuid :=
  (server.matchingSessions order request.regionId request.realmId request.target).filter
    (· ∈ server.sessions)

def deliverFrames (request : PushRequest) : Fallible GatewayServer Error PushReceipt := do
  let server ← get
  let delivered ← onEach (pushTo (pushFrame request)) (server.targets order request)
  if delivered = 0 then throw .unavailable
  else return .accept request delivered

/-- `text` reads a payload as `String::from_utf8_lossy` does. -/
def deliverInner (text : List UInt8 → String) (request : PushRequest) :
    Fallible GatewayServer Error PushReceipt := do
  liftM request.validate
  match request.target with
  | .joinTopic session topic =>
    updateMembership request.regionId request.realmId session topic true
    return .accept request 0
  | .leaveTopic session topic =>
    updateMembership request.regionId request.realmId session topic false
    return .accept request 0
  | .disconnect session =>
    let server ← get
    if ¬server.index.identities[session]?.any (inRealm request.regionId request.realmId) ∨
        session ∉ server.sessions then
      throw .unavailable
    else
      onSession (disconnectHandle (text request.payload)) session
      return .accept request 1
  | _ => deliverFrames order request

def Addressed (server : GatewayServer) (request : PushRequest) (session : Uuid) : Prop :=
  session ∈ server.sessions ∧ ∃ identity, server.index.identities[session]? = some identity ∧
    identity.regionId = request.regionId ∧ identity.realmId = request.realmId ∧
    match request.target with
    | .session id => session = id
    | .user userId => identity.userId = userId
    | .users userIds => identity.userId ∈ userIds
    | .topic topic => session ∈ server.topics topic
    | .realm => True
    | _ => False

theorem any_inRealm_iff {found : Option Identity} {regionId realmId : UInt32} :
    found.any (inRealm regionId realmId) = true ↔ ∃ identity, found = some identity ∧
      identity.regionId = regionId ∧ identity.realmId = realmId := by
  cases found with
  | none => simp
  | some => simp [inRealm]

theorem mem_users_iff (index : SessionIndex) (session : Uuid) (regionId realmId : UInt32)
    (userId : Int) :
    session ∈ index.users { regionId, realmId, userId } ↔
      ∃ identity, index.identities[session]? = some identity ∧ identity.regionId = regionId ∧
        identity.realmId = realmId ∧ identity.userId = userId := by
  rw [index.sound]
  refine exists_congr (fun identity => and_congr_right (fun _ => ?_))
  simp [Identity.playerKey]

theorem mem_foldl_union {α : Type} (members : α → Finset Uuid) (list : List α)
    (start : Finset Uuid) (session : Uuid) :
    session ∈ list.foldl (fun sessions element => sessions ∪ members element) start ↔
      session ∈ start ∨ ∃ element ∈ list, session ∈ members element := by
  induction list generalizing start with
  | nil => simp
  | cons _ _ ih =>
    rw [foldl_cons, ih]
    simp [or_assoc]

theorem mem_targets (server : GatewayServer) (request : PushRequest) (session : Uuid) :
    session ∈ server.targets order request ↔ server.Addressed request session := by
  rw [targets, mem_filter, and_comm, decide_eq_true_eq]
  refine and_congr_right (fun _ => ?_)
  cases request.target with
  | session id =>
    simp only [matchingSessions]
    split
    · rename_i known
      obtain ⟨identity, found, region, realm⟩ := any_inRealm_iff.mp known
      rw [mem_singleton]
      constructor
      · rintro rfl
        exact ⟨identity, found, region, realm, rfl⟩
      · rintro ⟨_, _, _, _, same⟩
        exact same
    · rename_i unknown
      simp only [not_mem_nil, false_iff]
      rintro ⟨identity, found, region, realm, rfl⟩
      exact unknown (any_inRealm_iff.mpr ⟨identity, found, region, realm⟩)
  | user =>
    simp only [matchingSessions, order.mem, mem_users_iff]
  | users =>
    simp only [matchingSessions, order.mem, mem_foldl_union, Finset.notMem_empty, false_or,
      mem_users_iff]
    constructor
    · rintro ⟨userId, listed, identity, found, region, realm, rfl⟩
      exact ⟨identity, found, region, realm, listed⟩
    · rintro ⟨identity, found, region, realm, listed⟩
      exact ⟨identity.userId, listed, identity, found, region, realm, rfl⟩
  | topic =>
    simp only [matchingSessions, mem_filter, order.mem, any_inRealm_iff]
    constructor
    · rintro ⟨joined, identity, found, region, realm⟩
      exact ⟨identity, found, region, realm, joined⟩
    · rintro ⟨identity, found, region, realm, joined⟩
      exact ⟨joined, identity, found, region, realm⟩
  | realm =>
    simp only [matchingSessions, mem_filter, order.mem, any_inRealm_iff, and_true,
      mem_toFinset, Std.ExtTreeMap.mem_keys]
    refine and_iff_right_of_imp ?_
    rintro ⟨identity, found, _⟩
    exact Std.ExtTreeMap.isSome_getElem?_iff_mem.mp (by rw [found]; rfl)
  | joinTopic | leaveTopic | disconnect => simp [matchingSessions]

theorem nodup_targets (server : GatewayServer) (request : PushRequest) :
    (server.targets order request).Nodup := by
  refine List.Nodup.filter _ ?_
  cases request.target with
  | session id =>
    simp only [matchingSessions]
    split
    · exact nodup_singleton id
    · exact nodup_nil
  | user | users => exact order.nodup _
  | topic | realm => exact (order.nodup _).filter _
  | joinTopic | leaveTopic | disconnect => exact nodup_nil

variable {order} {server : GatewayServer} {request : PushRequest} {text : List UInt8 → String}

theorem deliverInner_eq (valid : request.validate = .ok ())
    (plain : request.target.control = false) :
    (deliverInner order text request).call server = (deliverFrames order request).call server := by
  simp only [deliverInner, valid]
  cases target : request.target with
  | joinTopic | leaveTopic | disconnect => simp [target, PushTarget.control] at plain
  | _ => rfl

def HasRoom (server : GatewayServer) (session : Uuid) : Prop :=
  ∃ handle, server.sessions[session]? = some handle ∧ handle.pushes.Room

def Received (frame : Frame) (before after : GatewayServer) (session : Uuid) : Prop :=
  ∃ handle, before.sessions[session]? = some handle ∧ after.sessions[session]? =
    some { handle with pushes := { handle.pushes with frames := handle.pushes.frames ++ [frame] } }

theorem pushTo_room {handle : SessionHandle} {frame : Frame} (room : handle.pushes.Room) :
    pushTo frame handle = (.ok (), { handle with
      pushes := { handle.pushes with frames := handle.pushes.frames ++ [frame] } }) := by
  simp only [pushTo, PushQueue.trySend, if_pos room]

theorem deliverFrames_ok (room : ∀ session, server.Addressed request session →
      server.HasRoom session) :
    ∃ after, (deliverFrames order request).call server =
        ((if server.targets order request = [] then .error .unavailable
          else .ok (.accept request (server.targets order request).length)), after) ∧
      (∀ session, server.Addressed request session →
        Received (pushFrame request) server after session) ∧
      ∀ session, ¬server.Addressed request session →
        after.sessions[session]? = server.sessions[session]? := by
  have ready : ∀ session ∈ server.targets order request, ∃ handle,
      server.sessions[session]? = some handle ∧
        (pushTo (pushFrame request) handle).1 = .ok () := by
    intro session member
    obtain ⟨handle, found, free⟩ := room session ((mem_targets order _ _ _).mp member)
    exact ⟨handle, found, by rw [pushTo_room free]⟩
  obtain ⟨after, outcome, served⟩ := onEach_ok (nodup_targets order server request) ready
  refine ⟨after, ?_, ?_, ?_⟩
  · simp only [deliverFrames, call_bind, call_get, outcome, length_eq_zero_iff]
    split <;> rfl
  · intro session addressed
    obtain ⟨handle, found, free⟩ := room session addressed
    have done := served.done session ((mem_targets order _ _ _).mpr addressed) handle found
    rw [pushTo_room free] at done
    exact ⟨handle, found, done⟩
  · intro session other
    exact served.others session (mt (mem_targets order _ _ _).mp other)

theorem deliverFrames_stops {earlier later : List Uuid} {session : Uuid}
    (split : server.targets order request = earlier ++ session :: later)
    (room : ∀ other ∈ earlier, server.HasRoom other) (full : ¬server.HasRoom session) :
    ∃ after, (deliverFrames order request).call server = (.error .queueFull, after) ∧
      (∀ other ∈ earlier, Received (pushFrame request) server after other) ∧
      ∀ other, other ∉ earlier → after.sessions[other]? = server.sessions[other]? := by
  have distinct := nodup_targets order server request
  rw [split] at distinct
  have local_ : session ∈ server.sessions := by
    have member : session ∈ server.targets order request := by
      rw [split]
      exact mem_append_right _ mem_cons_self
    exact ((mem_targets order _ _ _).mp member).1
  obtain ⟨handle, found⟩ := Option.isSome_iff_exists.mp
    (Std.ExtTreeMap.isSome_getElem?_iff_mem.mpr local_)
  have refused : pushTo (pushFrame request) handle = (.error .queueFull, handle) := by
    rw [pushTo, PushQueue.trySend, if_neg (fun free => full ⟨handle, found, free⟩)]
  obtain ⟨after, outcome, served⟩ := onEach_stops distinct
    (fun other among => by
      obtain ⟨known, present, free⟩ := room other among
      exact ⟨known, present, by rw [pushTo_room free]⟩)
    found (congrArg Prod.fst refused)
  refine ⟨after, ?_, ?_, ?_⟩
  · simp only [deliverFrames, call_bind, call_get, split, outcome]
  · intro other among
    obtain ⟨known, present, free⟩ := room other among
    have done := served.done other (mem_append_left _ among) known present
    rw [pushTo_room free] at done
    exact ⟨known, present, done⟩
  · intro other absent
    by_cases same : other = session
    · rw [same, found, served.done session (by simp) handle found, refused]
    · exact served.others other (by simp [absent, same])

theorem Received.changed {frame : Frame} {after : GatewayServer} {session : Uuid}
    (received : Received frame server after session) :
    after.sessions[session]? ≠ server.sessions[session]? := by
  obtain ⟨handle, found, done⟩ := received
  rw [found, done]
  intro same
  have frames := congrArg (fun handle => handle.pushes.frames) (Option.some.inj same)
  simp at frames

/-- A push reaches every target whose queue has room, and reaches nobody when it
fails, exactly if the queues of all its targets have room or none has. -/
theorem delivery_isolated_iff (valid : request.validate = .ok ())
    (plain : request.target.control = false) (server : GatewayServer) :
    ((∀ session, server.Addressed request session → server.HasRoom session →
        Received (pushFrame request) server ((deliverInner order text request).call server).2
          session) ∧
      (∀ error, ((deliverInner order text request).call server).1 = .error error →
        ∀ session : Uuid, ((deliverInner order text request).call server).2.sessions[session]? =
          server.sessions[session]?)) ↔
    (∀ session, server.Addressed request session → server.HasRoom session) ∨
      ∀ session, server.Addressed request session → ¬server.HasRoom session := by
  rw [deliverInner_eq valid plain]
  constructor
  · rintro ⟨complete, atomic⟩
    by_contra mixed
    push Not at mixed
    obtain ⟨⟨slow, addressed, full⟩, ⟨fast, also, free⟩⟩ := mixed
    obtain ⟨earlier, first, later, split, before, blocked⟩ :=
      exists_first ((mem_targets order _ _ _).mpr addressed) full
    obtain ⟨after, outcome, _, untouched⟩ := deliverFrames_stops split before blocked
    have received := complete fast also free
    rw [outcome] at received
    have kept := atomic _ (congrArg Prod.fst outcome) fast
    rw [outcome] at kept
    exact received.changed kept
  · intro uniform
    by_cases room : ∀ session, server.Addressed request session → server.HasRoom session
    · obtain ⟨after, outcome, received, others⟩ := @deliverFrames_ok order _ _ room
      rw [outcome]
      refine ⟨fun session addressed _ => received session addressed, fun error failed session => ?_⟩
      refine others session (fun addressed => ?_)
      have member := (mem_targets order _ _ _).mpr addressed
      have targeted : server.targets order request ≠ [] := ne_nil_of_mem member
      rw [if_neg targeted] at failed
      cases failed
    · have full := uniform.resolve_left room
      refine ⟨fun session addressed free => absurd free (full session addressed), ?_⟩
      intro error _ session
      cases listed : server.targets order request with
      | nil =>
        refine absurd (fun other addressed => ?_) room
        have member := (mem_targets order _ _ _).mpr addressed
        rw [listed] at member
        exact absurd member not_mem_nil
      | cons first later =>
        have addressed : server.Addressed request first :=
          (mem_targets order _ _ _).mp (by rw [listed]; exact mem_cons_self)
        obtain ⟨after, outcome, _, untouched⟩ := @deliverFrames_stops order _ _ [] later first
          listed nofun (full first addressed)
        rw [outcome]
        exact untouched session not_mem_nil

section Sample

def sampleRequest : PushRequest where
  regionId := 1
  realmId := 1
  target := .user 2
  route := 100
  sequence := 1
  traceId := "trace"
  payload := [1, 2, 3]

theorem sample_targets (first second : List Frame) :
    (sampleServer first second).targets ascending sampleRequest = [1, 2] := by
  have matched : (sampleServer first second).matchingSessions ascending sampleRequest.regionId
      sampleRequest.realmId sampleRequest.target = [1, 2] := sample_listed first second
  rw [targets, matched]
  refine filter_eq_self.mpr ?_
  intro session member
  apply decide_eq_true
  rw [← Std.ExtTreeMap.isSome_getElem?_iff_mem]
  simp only [mem_cons, not_mem_nil, or_false] at member
  rcases member with rfl | rfl
  · rfl
  · rfl

theorem sample_addressed : (sampleServer [] []).Addressed sampleRequest 2 :=
  (mem_targets ascending _ _ _).mp (by rw [sample_targets]; decide)

theorem sample_room {session : Uuid} (target : (sampleServer [] []).Addressed sampleRequest session) :
    (sampleServer [] []).HasRoom session := by
  have member := (mem_targets ascending _ _ _).mpr target
  rw [sample_targets] at member
  simp only [mem_cons, not_mem_nil, or_false] at member
  rcases member with rfl | rfl
  · exact ⟨sampleHandle [], sample_session [] [] 1, rfl, Nat.one_pos⟩
  · exact ⟨sampleHandle [], sample_session [] [] 2, rfl, Nat.one_pos⟩

theorem sample_delivered :
    Received (pushFrame sampleRequest) (sampleServer [] [])
      ((deliverInner ascending (fun _ => "") sampleRequest).call (sampleServer [] [])).2 2 :=
  ((delivery_isolated_iff rfl rfl (sampleServer [] [])).mpr (.inl fun _ => sample_room)).1 2
    sample_addressed (sample_room sample_addressed)

theorem sample_full {first second : List Frame} {session : Uuid} {frames : List Frame}
    (found : (sampleServer first second).sessions[session]? = some (sampleHandle frames))
    (full : frames.length = 1) : ¬(sampleServer first second).HasRoom session := by
  rintro ⟨handle, known, _, room⟩
  cases found.symm.trans known
  simp only [sampleHandle] at room
  omega

/-- With the first queue full, the second session goes without the frame although
it has room. With the second queue full, the push fails although the first session
has the frame. -/
theorem full_queue_splits :
    ((deliverInner ascending (fun _ => "") sampleRequest).call
        (sampleServer [pushFrame sampleRequest] [])).1 = .error .queueFull ∧
      (sampleServer [pushFrame sampleRequest] []).Addressed sampleRequest 2 ∧
      (sampleServer [pushFrame sampleRequest] []).HasRoom 2 ∧
      ((deliverInner ascending (fun _ => "") sampleRequest).call
        (sampleServer [pushFrame sampleRequest] [])).2.sessions[2]? =
          (sampleServer [pushFrame sampleRequest] []).sessions[2]? ∧
    ((deliverInner ascending (fun _ => "") sampleRequest).call
        (sampleServer [] [pushFrame sampleRequest])).1 = .error .queueFull ∧
      Received (pushFrame sampleRequest) (sampleServer [] [pushFrame sampleRequest])
        ((deliverInner ascending (fun _ => "") sampleRequest).call
          (sampleServer [] [pushFrame sampleRequest])).2 1 := by
  rw [deliverInner_eq rfl rfl, deliverInner_eq rfl rfl]
  obtain ⟨blocked, stopped, _, untouched⟩ := @deliverFrames_stops ascending
    (sampleServer [pushFrame sampleRequest] []) sampleRequest [] [2] 1 (sample_targets _ _) nofun
    (sample_full (sample_session _ _ 1) rfl)
  obtain ⟨partial_, failed, received, _⟩ := @deliverFrames_stops ascending
    (sampleServer [] [pushFrame sampleRequest]) sampleRequest [1] [] 2 (sample_targets _ _)
    (by
      intro other member
      cases mem_singleton.mp member
      exact ⟨sampleHandle [], sample_session _ _ 1, rfl, Nat.one_pos⟩)
    (sample_full (sample_session _ _ 2) rfl)
  rw [stopped, failed]
  exact ⟨rfl, (mem_targets ascending _ _ _).mp (by rw [sample_targets]; decide),
    ⟨sampleHandle [], sample_session _ _ 2, rfl, Nat.one_pos⟩, untouched 2 not_mem_nil, rfl,
    received 1 mem_cons_self⟩

end Sample

end Elura.GatewayServer
