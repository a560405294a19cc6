import Elura.Gateway.WorldClientStep

/-!
Where the requests of a world client are: every request that is not answered yet has one owner,
and what a worker waits for on its connection is what has been sent there and not been answered.
-/

namespace Elura

open List

namespace WorldConnection

def sentIds (log : WorldConnection) : List UInt64 :=
  log.sent.map Frame.requestId

def unanswered (log : WorldConnection) : List UInt64 :=
  log.sentIds.filter (· ∉ log.received.map Frame.requestId)

theorem unanswered_received (log : WorldConnection) (frame : Frame) :
    unanswered { log with received := frame :: log.received } =
      log.unanswered.filter (· ≠ frame.requestId) := by
  unfold unanswered sentIds
  rw [filter_filter]
  congr 1
  funext id
  simp

end WorldConnection

namespace WorldCall

variable (call : WorldCall) (reply : WorldReply)

@[simp] theorem send_submission :
    (call.send reply).submission = call.submission := by
  unfold send
  split
  · rfl
  · rfl

@[simp] theorem send_slot :
    (call.send reply).slot = call.slot := by
  unfold send
  split
  · rfl
  · rfl

@[simp] theorem send_stage :
    (call.send reply).stage = call.stage := by
  unfold send
  split
  · rfl
  · rfl

theorem send_done {call : WorldCall} {result : WorldReply} (done : call.stage = .done result)
    (reply : WorldReply) : call.send reply = call := by
  unfold send
  rw [done]

theorem send_reply {call : WorldCall} (waiting : call.stage = .waiting) (reply : WorldReply) :
    (call.send reply).reply = some reply := by
  unfold send
  rw [waiting]

end WorldCall

theorem lt_nextTransportRequestId {id current : UInt64} (unwrapped : current ≠ 0xFFFFFFFFFFFFFFFF)
    (bound : id ≤ current) : id < nextTransportRequestId current := by
  rw [nextTransportRequestId, if_neg unwrapped]
  have below := current.toNat_lt
  have apart : current.toNat ≠ 0xFFFFFFFFFFFFFFFF := fun same =>
    unwrapped (UInt64.toNat_inj.mp same)
  rw [UInt64.le_iff_toNat_le] at bound
  rw [UInt64.lt_iff_toNat_lt, UInt64.toNat_add]
  have one : (1 : UInt64).toNat = 1 := rfl
  omega

namespace TcpWorldClient

variable {config : WorldClientConfig} {client after : TcpWorldClient} {action : Action}

/-- Transport request ids do not wrap around, and the world answers a request at most
once, on the connection it has come by. -/
def Regular (client : TcpWorldClient) : Action → Prop
  | .poll _ => client.transportRequestId ≠ 0xFFFFFFFFFFFFFFFF
  | .work index (.read frame) => ∀ worker ∈ client.workers[index]?,
      ∀ connection ∈ worker.phase.connection, ∀ log ∈ client.connections[connection]?,
        frame.requestId ∈ log.unanswered
  | _ => True

section Ids

structure Identified (client : TcpWorldClient) : Prop where
  begun : ∀ {index : Nat} {call : WorldCall}, client.calls[index]? = some call → call.stage = .begun →
    call.submission = none
  under : ∀ {index : Nat} {call : WorldCall}, client.calls[index]? = some call → Under call →
    ∃ submission worker, call.submission = some submission ∧
      client.workers[submission.sender]? = some worker
  below : ∀ {index : Nat} {call : WorldCall} {submission : WorldSubmission},
    client.calls[index]? = some call → call.submission = some submission →
    submission.frame.requestId < client.transportRequestId
  distinct : ∀ {index other : Nat} {left right : WorldCall} {submission twin : WorldSubmission},
    client.calls[index]? = some left → client.calls[other]? = some right → left.submission = some submission →
    right.submission = some twin → submission.frame.requestId = twin.frame.requestId →
    index = other

theorem CallStep.submission {index : Nat} {call later : WorldCall}
    (step : CallStep config client action after index call later) :
    later.submission = call.submission ∨
      ∃ submission, later.submission = some submission ∧ action = .poll index ∧
        call.stage = .begun ∧ submission.frame.requestId = client.transportRequestId ∧
        after.transportRequestId = nextTransportRequestId client.transportRequestId := by
  cases step with
  | submitted submission acts begun number _ _ id =>
    exact .inr ⟨submission, rfl, acts, begun, number, id⟩
  | answered => exact .inl (WorldCall.send_submission _ _)
  | same | returned | enqueued => exact .inl rfl

section

variable (taken : Step config client action after)
include taken

theorem Step.transportRequestId :
    after.transportRequestId = client.transportRequestId ∨
      (∃ index, action = .poll index) ∧
        after.transportRequestId = nextTransportRequestId client.transportRequestId := by
  cases taken.shape with
  | elapse | begin | enqueued | still => exact .inl rfl
  | returned polled _ _ _ _ _ _ _ _ _ _ id => exact id.imp_right (fun next => ⟨⟨polled, rfl⟩, next⟩)
  | submitted polled _ _ _ _ _ _ _ _ _ _ _ id => exact .inr ⟨⟨polled, rfl⟩, id⟩
  | work _ _ _ _ _ _ worked =>
    rw [worked.same]
    exact .inl rfl

theorem Step.below (regular : Regular client action)
    {id : UInt64} (below : id < client.transportRequestId) : id < after.transportRequestId := by
  rcases taken.transportRequestId with same | ⟨⟨index, rfl⟩, next⟩
  · rwa [same]
  · rw [next]
    exact lt_nextTransportRequestId regular (UInt64.le_of_lt below)

theorem Step.identified
    (regular : Regular client action) (known : Identified client) : Identified after where
  begun := by
    intro index later found begun
    rcases taken.call_back found with ⟨call, old, step⟩ | ⟨none_, _⟩
    · cases step with
      | same => exact known.begun old begun
      | answered =>
        rw [WorldCall.send_stage] at begun
        rw [WorldCall.send_submission]
        exact known.begun old begun
      | returned | submitted | enqueued => cases begun
    · exact none_
  under := by
    intro index later found under
    have kept {call : WorldCall} (old : client.calls[index]? = some call) (before : Under call)
        (same : later.submission = call.submission) : ∃ submission worker,
          later.submission = some submission ∧
            after.workers[submission.sender]? = some worker := by
      obtain ⟨submission, worker, submitted, present⟩ := known.under old before
      obtain ⟨next, there⟩ := taken.worker_kept present
      exact ⟨submission, next, same.trans submitted, there⟩
    rcases taken.call_back found with ⟨call, old, step⟩ | ⟨_, _, begun, _⟩
    · cases step with
      | same => exact kept old under rfl
      | returned => rcases under with stage | stage <;> cases stage
      | submitted submission _ _ _ _ chosen =>
        rcases chosen with ⟨_, _, workers, worker, present⟩ | ⟨last, _, workers⟩
        · exact ⟨submission, worker, rfl, workers ▸ present⟩
        · refine ⟨submission, { queue := [], phase := .idle }, rfl, ?_⟩
          rw [workers, last]
          exact getElem?_concat_length
      | enqueued _ _ stage => exact kept old (.inl stage) rfl
      | answered =>
        unfold Under at under
        rw [WorldCall.send_stage] at under
        exact kept old under (WorldCall.send_submission _ _)
    · rcases under with stage | stage <;> cases begun.symm.trans stage
  below := by
    intro index later submission found submitted
    rcases taken.call_back found with ⟨call, old, step⟩ | ⟨none_, _⟩
    · rcases step.submission with same | ⟨new, made, acts, _, number, id⟩
      · exact taken.below regular (known.below old (same ▸ submitted))
      · cases made.symm.trans submitted
        subst acts
        rw [id, number]
        exact lt_nextTransportRequestId regular (UInt64.le_rfl)
    · cases none_.symm.trans submitted
  distinct := by
    intro index other left right submission twin found there submitted twinned same
    rcases taken.call_back found with ⟨call, old, step⟩ | ⟨none_, _⟩
    · rcases taken.call_back there with ⟨second, older, next⟩ | ⟨none_, _⟩
      · rcases step.submission with kept | ⟨new, made, acts, _, number, _⟩
        · rcases next.submission with held | ⟨new, made, acts, _, number, _⟩
          · exact known.distinct old older (kept ▸ submitted) (held ▸ twinned) same
          · cases made.symm.trans twinned
            have bound := known.below old (kept ▸ submitted)
            rw [same, number] at bound
            exact absurd bound (UInt64.lt_irrefl _)
        · cases made.symm.trans submitted
          rcases next.submission with held | ⟨_, _, polled, _⟩
          · have bound := known.below older (held ▸ twinned)
            rw [← same, number] at bound
            exact absurd bound (UInt64.lt_irrefl _)
          · cases acts.symm.trans polled
            rfl
      · cases none_.symm.trans twinned
    · cases none_.symm.trans submitted

end

end Ids

section Tickets

variable {result : WorldReply} {index : Nat} {event : WorkerEvent} {next : WorldWorker}
  {replies : List (Nat × WorldReply)}

def Owned (client : TcpWorldClient) (worker : Nat) (ticket : Ticket) : Prop :=
  ∃ call submission, client.calls[ticket.call]? = some call ∧
    call.submission = some submission ∧ submission.sender = worker ∧
    submission.frame.requestId = ticket.id ∧ submission.deadline = ticket.deadline ∧
    call.reply = none ∧ (call.stage = .waiting ∨ ∃ error, call.stage = .done (.error error))

structure Ticketed (client : TcpWorldClient) : Prop where
  quiet : ∀ {index : Nat} {call : WorldCall}, client.calls[index]? = some call →
    call.stage = .begun ∨ call.stage = .enqueueing → call.reply = none
  owns : ∀ {index : Nat} {worker : WorldWorker} {ticket : Ticket},
    client.workers[index]? = some worker → ticket ∈ worker.owned → Owned client index ticket
  once : ∀ {index : Nat} {worker : WorldWorker}, client.workers[index]? = some worker →
    (worker.owned.map Ticket.call).Nodup

def Tidy (worker : WorldWorker) : Prop :=
  worker.phase.pending.ids.Nodup ∧
    ∀ request ∈ worker.phase.unsent, request.frame.requestId ∉ worker.phase.pending.ids

theorem unsent_enqueue (worker : WorldWorker) (request : PendingWorldRequest) :
    (WorldWorker.unsent { worker with queue := worker.queue ++ [request] }).Perm
      (request :: worker.unsent) := by
  unfold WorldWorker.unsent
  rw [append_assoc]
  exact perm_middle

theorem owned_enqueue (worker : WorldWorker) (request : PendingWorldRequest) :
    (WorldWorker.owned { worker with queue := worker.queue ++ [request] }).Perm
      (request.ticket :: worker.owned) :=
  ((unsent_enqueue worker request).map _).append_right _

theorem Returns.undone {call : WorldCall} (returns : Returns client call result)
    (other : WorldReply) : call.stage ≠ .done other := by
  intro done
  cases returns with
  | refused _ begun | answered _ begun => cases begun.symm.trans done
  | unavailable _ _ under | deadline _ under =>
    rcases under with stage | stage <;> cases stage.symm.trans done

theorem CallStep.done {call later : WorldCall}
    (step : CallStep config client action after index call later)
    (done : call.stage = .done result) : later = call := by
  cases step with
  | same => rfl
  | returned _ _ reason => exact absurd done (reason.undone result)
  | submitted _ _ begun | enqueued _ _ begun => cases begun.symm.trans done
  | answered reply =>
    exact WorldCall.send_done done reply

theorem Worked.owned {worker : WorldWorker} (known : Ticketed client)
    (worked : Worked config client index event worker next replies after) {call : Nat}
    {reply : WorldReply} (listed : (call, reply) ∈ replies) :
    ∃ ticket ∈ worker.owned, ticket.call = call ∧ Owned client index ticket ∧
      WorldWorker.Reason config client.clock worker event ticket reply := by
  obtain ⟨ticket, member, own, reason⟩ := worked.works.reason listed
  exact ⟨ticket, member, own, known.owns worked.found member, reason⟩

theorem Owned.step {worker : Nat} {ticket : Ticket} (owned : Owned client worker ticket)
    (known : Ticketed client) (taken : Step config client action after)
    (silent : ∀ event current next replies, action = .work worker event →
      Worked config client worker event current next replies after →
      ticket.call ∉ replies.map Prod.fst) : Owned after worker ticket := by
  obtain ⟨call, submission, found, submitted, sender, id, deadline, unanswered, stage⟩ := owned
  obtain ⟨later, present, step⟩ := taken.call found
  cases step with
  | same => exact ⟨call, submission, present, submitted, sender, id, deadline, unanswered, stage⟩
  | returned _ _ reason =>
    refine ⟨_, submission, present, submitted, sender, id, deadline, unanswered, .inr ?_⟩
    cases reason with
    | refused error => exact ⟨error, rfl⟩
    | unavailable | deadline => exact ⟨_, rfl⟩
    | answered _ _ given => cases unanswered.symm.trans given
  | submitted _ _ begun | enqueued _ _ begun =>
    rcases stage with waiting | ⟨error, done⟩
    · cases begun.symm.trans waiting
    · cases begun.symm.trans done
  | answered _ _ event current next replies acts worked listed =>
    obtain ⟨twin, _, own, ⟨same, request, there, requested, sends, _⟩, _⟩ :=
      worked.owned known listed
    rw [own, found] at there
    cases there
    cases submitted.symm.trans requested
    cases sends.symm.trans sender
    exact absurd (mem_map_of_mem listed) (silent event current next replies acts worked)

theorem Worked.kept {worker : WorldWorker} (known : Ticketed client) (tidy : Tidy worker)
    (worked : Worked config client index event worker next replies after) :
    (replies.map Prod.fst).Nodup ∧ (next.owned.map Ticket.call).Nodup ∧
      ∀ ticket ∈ next.owned, ticket ∈ worker.owned ∧ ticket.call ∉ replies.map Prod.fst := by
  obtain ⟨replied, same, perm⟩ := worked.works.owned tidy.1 tidy.2
  have distinct := (perm.map Ticket.call).nodup_iff.mpr (known.once worked.found)
  rw [map_append, same, nodup_append] at distinct
  obtain ⟨once, kept, apart⟩ := distinct
  refine ⟨once, kept, fun ticket member => ⟨perm.subset (mem_append_right _ member), ?_⟩⟩
  intro among
  exact apart _ among _ (mem_map_of_mem member) rfl

theorem Step.ticketed (taken : Step config client action after) (known : Ticketed client)
    (tidy : ∀ {index : Nat} {worker : WorldWorker}, client.workers[index]? = some worker →
      Tidy worker) : Ticketed after where
  quiet := by
    intro index later found early
    rcases taken.call_back found with ⟨call, old, step⟩ | ⟨_, none_, _⟩
    · cases step with
      | same => exact known.quiet old early
      | returned | enqueued => rcases early with stage | stage <;> cases stage
      | submitted _ _ begun =>
        have unanswered := known.quiet old (.inl begun)
        exact unanswered
      | answered _ _ _ _ _ _ _ worked listed =>
        obtain ⟨ticket, _, own, ⟨same, _, there, _, _, _, _, _, stage⟩, _⟩ :=
          worked.owned known listed
        rw [own, old] at there
        cases there
        rw [WorldCall.send_stage] at early
        rcases early with early | early
        all_goals rcases stage with stage | ⟨_, stage⟩ <;> cases early.symm.trans stage
    · exact none_
  owns := by
    intro index next ticket found member
    rcases taken.worker found with ⟨worker, old, step⟩ | ⟨_, rfl⟩
    · cases step with
      | same rests =>
        refine (known.owns old member).step known taken ?_
        intro event current next replies acts
        exact absurd acts (rests event)
      | enqueued _ call submission acts present stage submitted own calls =>
        rcases mem_cons.mp ((owned_enqueue worker _).subset member) with rfl | kept
        · have unanswered := known.quiet present (.inr stage)
          refine ⟨{ call with stage := .waiting }, submission, ?_, submitted, own, rfl, rfl,
            unanswered, .inl rfl⟩
          rw [calls, getElem?_set_found present]
          exact if_pos rfl
        · refine (known.owns old kept).step known taken ?_
          intro event current next replies works
          cases acts.symm.trans works
      | worked _ _ _ acts worked =>
        obtain ⟨before, silent⟩ := (worked.kept known (tidy old)).2.2 ticket member
        refine (known.owns old before).step known taken ?_
        intro other current moved answers works twin
        cases acts.symm.trans works
        cases old.symm.trans twin.found
        cases worked.stepped.symm.trans twin.stepped
        exact silent
    · cases member
  once := by
    intro index next found
    rcases taken.worker found with ⟨worker, old, step⟩ | ⟨_, rfl⟩
    · cases step with
      | same => exact known.once old
      | enqueued _ call _ _ present stage =>
        refine ((owned_enqueue worker _).map Ticket.call).nodup_iff.mpr ?_
        rw [map_cons, nodup_cons]
        refine ⟨?_, known.once old⟩
        intro among
        obtain ⟨ticket, member, same⟩ := mem_map.mp among
        obtain ⟨twin, _, there, _, _, _, _, _, late⟩ := known.owns old member
        rw [same] at there
        cases present.symm.trans there
        rcases late with late | ⟨_, late⟩ <;> cases stage.symm.trans late
      | worked _ _ _ _ worked => exact (worked.kept known (tidy old)).2.1
    · exact nodup_nil

end Tickets

section Links

variable {index connection : Nat} {worker next : WorldWorker} {request : PendingWorldRequest}
variable {queue : List PendingWorldRequest} {pending : PendingWorld} {inputOpen : Bool}
  {expiry place : Nat} {other : PendingWorldRequest} {log : WorldConnection}

structure Linked (config : WorldClientConfig) (client : TcpWorldClient) : Prop where
  unsent : ∀ {index : Nat} {worker : WorldWorker} {request : PendingWorldRequest},
    client.workers[index]? = some worker → request ∈ worker.unsent →
    ∃ call submission, client.calls[request.response]? = some call ∧
      call.submission = some submission ∧ submission.frame = request.frame
  fresh : ∀ {index connection : Nat} {worker : WorldWorker} {request : PendingWorldRequest}
    {log : WorldConnection}, client.workers[index]? = some worker → request ∈ worker.unsent →
    client.connections[connection]? = some log → request.frame.requestId ∉ log.sentIds
  joined : ∀ {index connection : Nat} {worker : WorldWorker},
    client.workers[index]? = some worker → worker.phase.connection = some connection →
    ∃ log, client.connections[connection]? = some log ∧ log.worker = index ∧
      worker.phase.pending.ids.Perm log.unanswered ∧
      worker.phase.pending.length + worker.phase.unsent.length ≤ config.maxInFlight
  distinct : ∀ {connection : Nat} {log : WorldConnection},
    client.connections[connection]? = some log → log.sentIds.Nodup
  received : ∀ {connection : Nat} {log : WorldConnection} {frame : Frame},
    client.connections[connection]? = some log → frame ∈ log.received →
    frame.requestId ∈ log.sentIds
  limit : ∀ {connection : Nat} {log : WorldConnection},
    client.connections[connection]? = some log → log.unanswered.length ≤ config.maxInFlight
  sent : ∀ {connection : Nat} {log : WorldConnection} {frame : Frame},
    client.connections[connection]? = some log → frame ∈ log.sent →
    ∃ (index : Nat) (call : WorldCall) (submission : WorldSubmission),
      client.calls[index]? = some call ∧ call.submission = some submission ∧
      submission.frame = frame ∧ (call.stage = .waiting ∨ ∃ result, call.stage = .done result)

theorem Linked.tidy (known : Linked config client) (found : client.workers[index]? = some worker) :
    Tidy worker := by
  cases on : worker.phase.connection with
  | none =>
    have empty : worker.phase.pending = [] := by
      unfold WorkerPhase.connection at on
      split at on
      · cases on
      · cases on
      all_goals
        rename_i phase
        rw [phase]
        rfl
    unfold Tidy
    rw [empty]
    exact ⟨nodup_nil, fun request member => not_mem_nil⟩
  | some =>
    obtain ⟨log, there, _, perm, _⟩ := known.joined found on
    refine ⟨perm.nodup_iff.mpr ((known.distinct there).filter _), fun request member among => ?_⟩
    exact known.fresh found (mem_append_right _ member) there
      (mem_of_mem_filter (perm.subset among))

def Submitted (client : TcpWorldClient) (index : Nat) (frame : Frame) : Prop :=
  ∃ call submission, client.calls[index]? = some call ∧ call.submission = some submission ∧
    submission.frame = frame ∧ (call.stage = .waiting ∨ ∃ result, call.stage = .done result)

/-- The submission of a call is the same after a step, and so is that it has been sent. -/
theorem Step.sent (taken : Step config client action after) {frame : Frame}
    (submitted : Submitted client index frame) : Submitted after index frame := by
  obtain ⟨call, submission, found, made, same, late⟩ := submitted
  obtain ⟨later, present, step⟩ := taken.call found
  refine ⟨later, submission, present, ?_⟩
  cases step with
  | same => exact ⟨made, same, late⟩
  | returned result => exact ⟨made, same, .inr ⟨result, rfl⟩⟩
  | submitted _ _ begun =>
    rcases late with stage | ⟨_, stage⟩ <;> cases begun.symm.trans stage
  | enqueued => exact ⟨made, same, .inl rfl⟩
  | answered =>
    rw [WorldCall.send_submission, WorldCall.send_stage]
    exact ⟨made, same, late⟩

theorem mem_unsent_writing : request ∈ WorldWorker.unsent
    ⟨queue, .writing connection pending inputOpen request expiry⟩ :=
  List.mem_append_right _ List.mem_cons_self

theorem Ticketed.unsent (known : Ticketed client) (found : client.workers[index]? = some worker)
    (member : request ∈ worker.unsent) : Owned client index request.ticket :=
  known.owns found (WorldWorker.mem_owned_unsent member)

theorem Ticketed.unsent_apart (known : Ticketed client) (ids : Identified client)
    (found : client.workers[index]? =
      some ⟨queue, .writing connection pending inputOpen request expiry⟩)
    (there : client.workers[place]? = some worker) (member : other ∈ worker.unsent)
    (waits : place = index → other ∈ queue) : other.frame.requestId ≠ request.frame.requestId := by
  intro same
  obtain ⟨left, submission, called, submitted, sender, id, _⟩ := known.unsent there member
  obtain ⟨right, twin, calling, twinned, sends, own, _⟩ := known.unsent found mem_unsent_writing
  have one := ids.distinct called calling submitted twinned (id.trans (same.trans own.symm))
  rw [one, calling] at called
  cases called
  cases submitted.symm.trans twinned
  have here := sender.symm.trans sends
  have once := known.once found
  rw [WorldWorker.owned_writing, map_append, nodup_append] at once
  exact once.2.2 _ (mem_map_of_mem (mem_map_of_mem (waits here))) _
    (mem_map_of_mem mem_cons_self) one

theorem Worked.connections {event : WorkerEvent} {replies : List (Nat × WorldReply)}
    (worked : Worked config client index event worker next replies after) :
    after.connections = client.record index worker event := by
  rw [worked.same]
  rfl

theorem length_ids (pending : PendingWorld) : pending.ids.length = pending.length :=
  List.length_map _

theorem Ticketed.fresh_written (known : Ticketed client) (ids : Identified client)
    (taken : Step config client (.work index .written) after)
    (found : after.workers[place]? = some next) (member : other ∈ next.unsent)
    (writing : client.workers[index]? =
      some ⟨queue, .writing connection pending inputOpen request expiry⟩) :
    other.frame.requestId ≠ request.frame.requestId := by
  rcases taken.worker found with ⟨worker, old, step⟩ | ⟨_, rfl⟩
  · cases step with
    | same rests =>
      refine known.unsent_apart ids writing old member ?_
      rintro rfl
      exact absurd rfl (rests _)
    | enqueued _ _ _ acts => cases acts
    | worked event _ _ acts worked =>
      refine known.unsent_apart ids writing old (worked.works.unsent member) ?_
      intro here
      cases acts
      cases writing.symm.trans old
      cases worked.works with
      | written =>
        unfold WorldWorker.unsent at member
        rw [WorldWorker.settle_unsent, append_nil] at member
        exact member
      | writeFailed _ _ _ _ _ _ _ cause =>
        rcases cause with cause | ⟨cause, _⟩ <;> cases cause
  · cases member

section

variable (known : Linked config client) (taken : Step config client action after)
include known taken

theorem Linked.log_kept (there : client.connections[connection]? = some log) (own : log.worker = index)
    (rests : ∀ event, event = .written ∨ (∃ frame, event = .read frame) →
      action ≠ .work index event) : after.connections[connection]? = some log := by
  obtain ⟨later, present, step⟩ := taken.connection there
  have mine {worker : Nat} {current : WorldWorker} (found : client.workers[worker]? = some current)
      (on : current.phase.connection = some connection) : worker = index := by
    obtain ⟨same, again, owner, _⟩ := known.joined found on
    cases there.symm.trans again
    exact owner.symm.trans own
  cases step with
  | same => exact present
  | written _ _ _ _ _ _ acts found =>
    rw [mine found rfl] at acts
    exact absurd acts (rests _ (.inl rfl))
  | read _ _ _ _ frame acts found =>
    rw [mine found rfl] at acts
    exact absurd acts (rests _ (.inr ⟨frame, rfl⟩))

theorem Linked.joined_step (found : after.workers[index]? = some next)
    (joined : next.phase.connection = some connection) :
    ∃ log, after.connections[connection]? = some log ∧ log.worker = index ∧
      next.phase.pending.ids.Perm log.unanswered ∧
      next.phase.pending.length + next.phase.unsent.length ≤ config.maxInFlight := by
  rcases taken.worker found with ⟨worker, old, step⟩ | ⟨_, rfl⟩
  · cases step with
    | same rests =>
      obtain ⟨log, there, own, rest⟩ := known.joined old joined
      exact ⟨log, known.log_kept taken there own (fun event _ => rests event), own, rest⟩
    | enqueued _ _ _ _ _ _ _ own _ connections =>
      obtain ⟨log, there, own, rest⟩ := known.joined old joined
      exact ⟨log, connections ▸ there, own, rest⟩
    | worked _ next _ acts worked =>
      cases worked.works.joins joined with
      | stays before ids room quiet =>
        obtain ⟨log, there, own, perm, bound⟩ := known.joined old before
        refine ⟨log, known.log_kept taken there own ?_, own, ids ▸ perm, ?_⟩
        · rintro other shape same
          cases acts.symm.trans same
          rcases quiet with rfl | rfl | rfl
          all_goals rcases shape with shape | ⟨_, shape⟩ <;> cases shape
        · have length : next.phase.pending.length = worker.phase.pending.length := by
            rw [← length_ids, ids, length_ids]
          rcases room with sent | ⟨single, below⟩
          · rw [sent, length_nil]
            omega
          · omega
      | opens new connects empty =>
        subst new connects
        refine ⟨{ worker := index, sent := [], received := [] }, ?_, rfl, ?_, ?_⟩
        · rw [worked.connections]
          exact getElem?_concat_length
        · rw [empty]
          exact .refl _
        · have limited := config.limited.1
          rw [empty, length_nil]
          omega
      | writes queue pending inputOpen request expiry before written pended sent =>
        subst before written
        obtain ⟨log, there, own, perm, bound⟩ := known.joined old rfl
        have absent := known.fresh old mem_unsent_writing there
        have unreceived : request.frame.requestId ∉ log.received.map Frame.requestId := by
          intro among
          obtain ⟨frame, member, same⟩ := mem_map.mp among
          exact absent (same ▸ known.received there member)
        have unlisted : request.frame.requestId ∉ pending.ids := fun among =>
          absent (mem_of_mem_filter (perm.subset among))
        refine ⟨{ log with sent := request.frame :: log.sent }, ?_, own, ?_, ?_⟩
        · rw [worked.connections]
          change (client.connections.modify connection _)[connection]? = _
          rw [getElem?_modify_found there, if_pos rfl]
        · rw [pended, PendingWorld.insert_of_absent unlisted]
          have sent : WorldConnection.unanswered { log with sent := request.frame :: log.sent } =
              request.frame.requestId :: log.unanswered :=
            filter_cons_of_pos (decide_eq_true unreceived)
          exact sent ▸ perm.cons _
        · rw [pended, sent, PendingWorld.insert_of_absent unlisted]
          exact bound
      | reads _ pending _ frame before read pended sent =>
        subst before read
        obtain ⟨log, there, own, perm, bound⟩ := known.joined old rfl
        refine ⟨{ log with received := frame :: log.received }, ?_, own, ?_, ?_⟩
        · rw [worked.connections]
          change (client.connections.modify connection _)[connection]? = _
          rw [getElem?_modify_found there, if_pos rfl]
        · rw [pended, PendingWorld.ids_remove, WorldConnection.unanswered_received]
          exact perm.filter _
        · rw [pended, sent, length_nil]
          have shorter : (pending.remove frame.requestId).length ≤ pending.length :=
            length_filter_le _ _
          change pending.length + 0 ≤ _ at bound
          omega
  · cases joined

theorem Linked.fresh_step (ids : Identified client) (found : after.workers[index]? = some next)
    (member : request ∈ next.unsent) (logged : client.connections[connection]? = some log) :
    request.frame.requestId ∉ log.sentIds := by
  rcases taken.worker found with ⟨worker, old, step⟩ | ⟨_, rfl⟩
  · cases step with
    | same => exact known.fresh old member logged
    | enqueued _ _ _ _ present stage submitted =>
      rcases mem_cons.mp ((unsent_enqueue worker _).subset member) with rfl | before
      · intro among
        obtain ⟨frame, sent, same⟩ := mem_map.mp among
        obtain ⟨place, twin, twinned, there, twins, rfl, late⟩ := known.sent logged sent
        cases ids.distinct present there submitted twins same.symm
        cases present.symm.trans there
        rcases late with late | ⟨_, late⟩ <;> cases stage.symm.trans late
      · exact known.fresh old before logged
    | worked _ _ _ _ worked =>
      exact known.fresh old (worked.works.unsent member) logged
  · cases member

theorem Linked.unsent_step (tickets : Ticketed client)
    (old : client.workers[index]? = some worker) (before : request ∈ worker.unsent) : Submitted after request.response request.frame := by
  obtain ⟨call, submission, called, submitted, same⟩ := known.unsent old before
  obtain ⟨_, _, there, _, _, _, _, _, stage⟩ := tickets.unsent old before
  cases called.symm.trans there
  exact taken.sent ⟨call, submission, called, submitted, same,
    stage.imp_right (fun ⟨error, done⟩ => ⟨_, done⟩)⟩

theorem Step.linked (regular : Regular client action) (ids : Identified client)
    (tickets : Ticketed client) : Linked config after where
  unsent := by
    intro index next request found member
    have kept {worker : WorldWorker} (old : client.workers[index]? = some worker)
        (before : request ∈ worker.unsent) : ∃ call submission,
        after.calls[request.response]? = some call ∧ call.submission = some submission ∧
          submission.frame = request.frame := by
      obtain ⟨call, submission, called, submitted, same, _⟩ := known.unsent_step taken tickets old before
      exact ⟨call, submission, called, submitted, same⟩
    rcases taken.worker found with ⟨worker, old, step⟩ | ⟨_, rfl⟩
    · cases step with
      | same => exact kept old member
      | enqueued _ call submission _ present stage submitted _ calls =>
        rcases mem_cons.mp ((unsent_enqueue worker _).subset member) with rfl | before
        · refine ⟨{ call with stage := .waiting }, submission, ?_, submitted, rfl⟩
          rw [calls, getElem?_set_found present]
          exact if_pos rfl
        · exact kept old before
      | worked _ _ _ _ worked => exact kept old (worked.works.unsent member)
    · cases member
  fresh := by
    intro index connection next request later found member there
    rcases taken.connection_back there with ⟨log, logged, change_⟩ | ⟨_, nothing, _⟩
    · have before := known.fresh_step taken ids found member logged
      cases change_ with
      | same | read => exact before
      | written _ _ _ _ _ _ acts writing =>
        subst acts
        exact not_mem_cons_of_ne_of_not_mem
          (tickets.fresh_written ids taken found member writing) before
    · unfold WorldConnection.sentIds
      rw [nothing]
      exact not_mem_nil
  joined := known.joined_step taken
  distinct := by
    intro connection later there
    rcases taken.connection_back there with ⟨log, logged, change_⟩ | ⟨_, nothing, _⟩
    · cases change_ with
      | same => exact known.distinct logged
      | written _ _ _ _ _ _ _ found =>
        exact nodup_cons.mpr
          ⟨known.fresh found mem_unsent_writing logged, known.distinct logged⟩
      | read =>
        have before := known.distinct logged
        exact before
    · unfold WorldConnection.sentIds
      rw [nothing]
      exact nodup_nil
  received := by
    intro connection later frame there member
    rcases taken.connection_back there with ⟨log, logged, change_⟩ | ⟨_, _, nothing⟩
    · cases change_ with
      | same => exact known.received logged member
      | written => exact mem_cons_of_mem _ (known.received logged member)
      | read _ _ _ _ _ acts found =>
        rcases mem_cons.mp member with rfl | before
        · subst acts
          have answers := regular _ found connection rfl log logged
          exact mem_of_mem_filter answers
        · have sent := known.received logged before
          exact sent
    · rw [nothing] at member
      cases member
  limit := by
    intro connection later there
    rcases taken.connection_back there with ⟨log, logged, change_⟩ | ⟨_, nothing, _⟩
    · cases change_ with
      | same => exact known.limit logged
      | written _ _ pending _ request _ _ found =>
        obtain ⟨same, again, _, perm, bound⟩ := known.joined found rfl
        cases logged.symm.trans again
        have short : (WorldConnection.unanswered
            { log with sent := request.frame :: log.sent }).length ≤ log.unanswered.length + 1 := by
          unfold WorldConnection.unanswered WorldConnection.sentIds
          rw [map_cons, filter_cons]
          split
          · exact le_rfl
          · exact Nat.le_succ _
        change pending.length + 1 ≤ _ at bound
        have length := perm.length_eq
        rw [length_ids] at length
        change pending.length = _ at length
        omega
      | read =>
        rw [WorldConnection.unanswered_received]
        exact (length_filter_le _ _).trans (known.limit logged)
    · unfold WorldConnection.unanswered WorldConnection.sentIds
      rw [nothing]
      exact Nat.zero_le _
  sent := by
    intro connection later frame there member
    have kept {log : WorldConnection} (logged : client.connections[connection]? = some log)
        (before : frame ∈ log.sent) : ∃ index, Submitted after index frame :=
      (known.sent logged before).imp (fun _ => taken.sent)
    rcases taken.connection_back there with ⟨log, logged, change_⟩ | ⟨_, nothing, _⟩
    · cases change_ with
      | same | read => exact kept logged member
      | written _ _ _ _ _ _ _ found =>
        rcases mem_cons.mp member with rfl | before
        · exact ⟨_, known.unsent_step taken tickets found mem_unsent_writing⟩
        · exact kept logged before
    · rw [nothing] at member
      cases member

end

structure Sound (config : WorldClientConfig) (client : TcpWorldClient) : Prop where
  ids : Identified client
  tickets : Ticketed client
  links : Linked config client

theorem sound_new (clock : Nat) : Sound config (new clock) where
  ids := ⟨fun found => (nomatch found), fun found => (nomatch found),
    fun found => (nomatch found), fun found => (nomatch found)⟩
  tickets := ⟨fun found => (nomatch found), fun found => (nomatch found),
    fun found => (nomatch found)⟩
  links := ⟨fun found => (nomatch found), fun found => (nomatch found),
    fun found => (nomatch found), fun found => (nomatch found), fun found => (nomatch found),
    fun found => (nomatch found), fun found => (nomatch found)⟩

theorem Step.sound (taken : Step config client action after) (regular : Regular client action)
    (known : Sound config client) : Sound config after where
  ids := taken.identified regular known.ids
  tickets := taken.ticketed known.tickets known.links.tidy
  links := taken.linked known.links regular known.ids known.tickets

end Links

end TcpWorldClient

end Elura
