import Elura.Gateway.PushDelivery

/-!
The consumer of a gateway's push stream. A message that cannot be read is acknowledged at once;
any other when its delivery succeeds, and until then it is delivered again.
-/

namespace Elura.GatewayServer

open Fallible

structure PushMessage where
  id : String
  payload : Option (List UInt8)

/-- The libraries the consumer uses: the JSON parser, the order of hash sets and lossy UTF-8. -/
structure PushReader where
  parse : List UInt8 → Option PushRequest
  order : HashOrder Uuid
  text : List UInt8 → String

namespace PushReader

variable (reader : PushReader)

def read (message : PushMessage) : Option PushRequest :=
  (message.payload.bind reader.parse).filter (fun request => request.validate = .ok ())

def handle (message : PushMessage) (server : GatewayServer) : Bool × GatewayServer :=
  match reader.read message with
  | none => (true, server)
  | some request =>
    match (deliverInner reader.order reader.text request).call server with
    | (.ok _, after) => (true, after)
    | (.error _, after) => (false, after)

def deliver : List PushMessage → GatewayServer → List String × GatewayServer
  | [], server => ([], server)
  | message :: rest, server =>
    let handled := reader.handle message server
    let others := deliver rest handled.2
    (if handled.1 then message.id :: others.1 else others.1, others.2)

def Meets (request : PushRequest) (server : GatewayServer) : Prop :=
  match request.target with
  | .joinTopic session topic | .leaveTopic session topic =>
    topic ≠ "" ∧ server.index.identities[session]?.any (inRealm request.regionId request.realmId) ∧
      ∀ join, ((trackTopic session topic join).call server).1 = .ok ()
  | .disconnect session =>
    server.index.identities[session]?.any (inRealm request.regionId request.realmId) ∧
      ∃ handle, server.sessions[session]? = some handle ∧
        (disconnectHandle (reader.text request.payload) handle).1 = .ok ()
  | _ => (∃ session, server.Addressed request session) ∧
      ∀ session, server.Addressed request session → server.HasRoom session

variable {reader} {request : PushRequest} {server : GatewayServer} {message : PushMessage}

theorem updateMembership_ok {regionId realmId : UInt32} {session : Uuid} {topic : String}
    (join : Bool) (named : topic ≠ "")
    (known : server.index.identities[session]?.any (inRealm regionId realmId))
    (tracked : ((trackTopic session topic join).call server).1 = .ok ()) :
    ∃ after, (updateMembership regionId realmId session topic join).call server =
      (.ok (), after) := by
  have admitted : ¬(topic = "" ∨ ¬server.index.identities[session]?.any (inRealm regionId realmId)) :=
    fun refused => refused.elim named (fun unknown => unknown known)
  simp only [updateMembership, call_bind, call_get, if_neg admitted]
  refine ⟨_, Prod.ext ?_ rfl⟩
  -- the topics are not read
  revert tracked
  simp only [trackTopic, call_bind, call_get]
  cases server.online <;> exact id

theorem deliverInner_meets (valid : request.validate = .ok ()) (meets : reader.Meets request server) :
    ∃ receipt, ((deliverInner reader.order reader.text request).call server).1 = .ok receipt := by
  by_cases plain : request.target.control = false
  · have present : (∃ session, server.Addressed request session) ∧
        ∀ session, server.Addressed request session → server.HasRoom session := by
      unfold Meets at meets
      split at meets <;> simp_all [PushTarget.control]
    obtain ⟨⟨session, addressed⟩, room⟩ := present
    obtain ⟨after, outcome, _⟩ := @deliverFrames_ok reader.order _ _ room
    have some : server.targets reader.order request ≠ [] :=
      List.ne_nil_of_mem ((mem_targets _ _ _ _).mpr addressed)
    rw [deliverInner_eq valid plain, outcome, if_neg some]
    exact ⟨_, rfl⟩
  · simp only [deliverInner, call_bind, call_liftExcept, valid]
    unfold Meets at meets
    cases target : request.target with
    | joinTopic =>
      rw [target] at meets
      obtain ⟨after, done⟩ := updateMembership_ok true meets.1 meets.2.1 (meets.2.2 true)
      exact ⟨_, by rw [call_bind, done]; rfl⟩
    | leaveTopic =>
      rw [target] at meets
      obtain ⟨after, done⟩ := updateMembership_ok false meets.1 meets.2.1 (meets.2.2 false)
      exact ⟨_, by rw [call_bind, done]; rfl⟩
    | disconnect session =>
      rw [target] at meets
      obtain ⟨known, handle, found, disconnected⟩ := meets
      have served : ¬(¬server.index.identities[session]?.any
          (inRealm request.regionId request.realmId) ∨ session ∉ server.sessions) := by
        refine fun refused => refused.elim (fun unknown => unknown known) (fun absent => absent ?_)
        exact Std.ExtTreeMap.isSome_getElem?_iff_mem.mp (by rw [found]; rfl)
      simp only [call_bind, call_get, if_neg served, onSession_eq found, disconnected]
      exact ⟨_, rfl⟩
    | session | user | users | topic | realm => simp [target, PushTarget.control] at plain

theorem handle_acknowledges
    (meets : ∀ request, reader.read message = some request → reader.Meets request server) :
    (reader.handle message server).1 = true := by
  unfold handle
  split
  · rfl
  · rename_i request found
    have valid := of_decide_eq_true (Option.filter_eq_some_iff.mp found).2
    obtain ⟨receipt, delivered⟩ := deliverInner_meets valid (meets request found)
    split
    · rfl
    · rename_i failed
      rw [failed] at delivered
      cases delivered

theorem mem_deliver {before after : List PushMessage}
    (handled : (reader.handle message (reader.deliver before server).2).1 = true) :
    message.id ∈ (reader.deliver (before ++ message :: after) server).1 := by
  induction before generalizing server with
  | nil =>
    simp only [deliver] at handled
    simp [deliver, handled]
  | cons first rest ih =>
    have later := ih handled
    simp only [List.cons_append, deliver]
    split
    · exact List.mem_cons_of_mem _ later
    · exact later

def sampleReader : PushReader where
  parse := fun bytes => if bytes = [1] then some sampleRequest else none
  order := ascending
  text := fun _ => ""

def sampleMessage : PushMessage where
  id := "1"
  payload := some [1]

end PushReader

end Elura.GatewayServer
