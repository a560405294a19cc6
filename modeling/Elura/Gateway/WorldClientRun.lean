import Elura.Gateway.WorldClientTickets

/-!
The calls of a world client over whole runs. A call returns once; it returns a payload
only if that payload has come back for it; and it does return if it is polled again and
again while the time goes on.
-/

namespace Elura

open List WorldCall

namespace WorldWorker

variable {config : WorldClientConfig} {now fresh : Nat} {worker after : WorldWorker}
  {event : WorkerEvent} {replies : List (Nat × WorldReply)}

def inFlight (worker : WorldWorker) : List Ticket :=
  worker.phase.unsent.map PendingWorldRequest.ticket ++ worker.phase.pending.tickets

theorem mem_owned_inFlight {ticket : Ticket} (member : ticket ∈ worker.inFlight) :
    ticket ∈ worker.owned := by
  unfold inFlight at member
  unfold owned WorldWorker.unsent
  rw [map_append, append_assoc]
  exact mem_append_right _ member

theorem mem_failWorldRequests {pending : PendingWorld} {ticket : Ticket}
    (member : ticket ∈ pending.tickets) :
    (ticket.call, (.error .unavailable : WorldReply)) ∈ pending.failWorldRequests := by
  unfold PendingWorld.failWorldRequests
  rw [← PendingWorld.calls_tickets, map_map]
  exact mem_map.mpr ⟨ticket, member, rfl⟩

theorem mem_expired {pending : PendingWorld} {ticket : Ticket}
    (gone : (pending.expire now).tickets = []) (member : ticket ∈ pending.tickets) :
    (ticket.call, (.error .timeout : WorldReply)) ∈ pending.expired now := by
  have perm : (PendingWorld.tickets (pending.filter (·.2.deadline ≤ now)) ++
      (pending.expire now).tickets).Perm pending.tickets := PendingWorld.tickets_expire
  rw [gone, append_nil] at perm
  unfold PendingWorld.expired
  rw [← PendingWorld.calls_tickets, map_map]
  exact mem_map.mpr ⟨ticket, perm.mem_iff.mpr member, rfl⟩

theorem Works.leaves (works : Works config now fresh worker event after replies)
    (distinct : worker.phase.pending.ids.Nodup) {connection : Nat}
    (on : worker.phase.connection = some connection)
    (off : after.phase.connection ≠ some connection) {ticket : Ticket}
    (member : ticket ∈ worker.inFlight) :
    (∃ frame, event = .read frame ∧ frame.requestId = ticket.id) ∨
      ∃ error, (ticket.call, .error error) ∈ replies := by
  have settled {pending : PendingWorld} {inputOpen : Bool}
      (left : (settle connection pending inputOpen).connection ≠ some connection) :
      pending.tickets = [] := by
    rcases settle_cases connection pending inputOpen with same | ⟨_, _, none_⟩
    · rw [same] at left
      exact absurd rfl left
    · exact none_
  have proceeded {pending : PendingWorld} {inputOpen : Bool}
      (left : (proceed connection pending inputOpen).connection ≠ some connection) :
      pending.tickets = [] := by
    rcases proceed_cases connection pending inputOpen with same | ⟨_, none_⟩
    · rw [same] at left
      exact absurd rfl left
    · exact none_
  cases works with
  | take _ pending request =>
    cases on
    rcases start_cases config now connection pending request with
      ⟨_, started⟩ | ⟨_, started⟩
    all_goals
      rw [started] at off
      exact absurd rfl off
  | closed _ pending =>
    cases on
    change ticket ∈ pending.tickets at member
    rw [settled off] at member
    cases member
  | written =>
    cases on
    have none_ := settled off
    unfold PendingWorld.insert at none_
    rw [PendingWorld.tickets_cons] at none_
    cases none_
  | writeFailed =>
    refine .inr ⟨.unavailable, ?_⟩
    rcases mem_cons.mp member with rfl | listed
    · exact mem_cons_self
    · exact mem_cons_of_mem _ (mem_failWorldRequests listed)
  | unknown | readFailed => exact .inr ⟨_, mem_failWorldRequests member⟩
  | read own pending _ frame _ _ found =>
    cases on
    change pending.ids.Nodup at distinct
    have perm := PendingWorld.tickets_remove distinct found
    rw [proceeded off, append_nil] at perm
    have own := perm.mem_iff.mpr member
    obtain ⟨call, _, rfl⟩ := Option.map_eq_some_iff.mp (Option.mem_toList.mp own)
    exact .inl ⟨frame, rfl, rfl⟩
  | expire =>
    cases on
    exact .inr ⟨_, mem_expired (proceeded off) member⟩
  | late | connect | ended | connected | connectFailed | connectExpired => cases on

end WorldWorker

theorem lookup_of_mem {α β : Type} [DecidableEq α] {entries : List (α × β)} {key : α} {value : β}
    (distinct : (entries.map Prod.fst).Nodup) (member : (key, value) ∈ entries) :
    entries.lookup key = some value := by
  induction entries with
  | nil => cases member
  | cons entry _ ih =>
    rw [map_cons, nodup_cons] at distinct
    rcases mem_cons.mp member with rfl | later
    · exact lookup_cons_self
    · have apart : key ≠ entry.1 := fun same =>
        distinct.1 (same ▸ mem_map_of_mem later)
      rw [lookup_cons, beq_false_of_ne apart]
      exact ih distinct.2 later

namespace TcpWorldClient

variable {config : WorldClientConfig} {client after : TcpWorldClient} {action : Action}

variable {place index : Nat} {event : WorkerEvent} {worker next : WorldWorker} {call : WorldCall}
  {payload : List UInt8}

section Answers

def Answered (client : TcpWorldClient) (submission : WorldSubmission) (frame : Frame) : Prop :=
  ∃ (connection : Nat) (log : WorldConnection), client.connections[connection]? = some log ∧
    submission.frame ∈ log.sent ∧ frame ∈ log.received ∧
    frame.requestId = submission.frame.requestId

def Fed (client : TcpWorldClient) (call : WorldCall) (payload : List UInt8) : Prop :=
  ∃ (submission : WorldSubmission) (frame : Frame), call.submission = some submission ∧
    Answered client submission frame ∧ frame.kind = .response ∧ frame.payload = payload

theorem LogStep.grows {log later : WorldConnection} (step : LogStep client action index log later) :
    log.sent ⊆ later.sent ∧ log.received ⊆ later.received := by
  cases step with
  | same => exact ⟨List.Subset.refl _, List.Subset.refl _⟩
  | written => exact ⟨subset_cons_self _ _, List.Subset.refl _⟩
  | read => exact ⟨List.Subset.refl _, subset_cons_self _ _⟩

theorem Answered.step {submission : WorldSubmission} {frame : Frame}
    (answered : Answered client submission frame) (taken : Step config client action after) :
    Answered after submission frame := by
  obtain ⟨connection, log, there, sent, received, own⟩ := answered
  obtain ⟨grown, present, step⟩ := taken.connection there
  exact ⟨connection, grown, present, step.grows.1 sent, step.grows.2 received, own⟩

theorem Fed.step {later : WorldCall} (fed : Fed client call payload)
    (taken : Step config client action after) (same : later.submission = call.submission) :
    Fed after later payload := by
  obtain ⟨submission, frame, submitted, answered, rest⟩ := fed
  exact ⟨submission, frame, same.trans submitted, answered.step taken, rest⟩

theorem complete_ok {frame : Frame} (ok : WorldWorker.complete config frame = .ok payload) :
    frame.kind = .response ∧ frame.payload = payload := by
  unfold WorldWorker.complete at ok
  split at ok
  · rename_i kind
    cases ok
    exact ⟨kind, rfl⟩
  · split at ok <;> cases ok
  · cases ok
  · cases ok

def Failed (client : TcpWorldClient) (index : Nat) : Prop :=
  ∃ call error, client.calls[index]? = some call ∧
    (call.stage = .waiting ∧ call.reply = some (.error error) ∨ call.stage = .done (.error error))

section

variable {replies : List (Nat × WorldReply)} (known : Sound config client)
  (worked : Worked config client place event worker next replies after)
include known worked

/-- What a worker gives to a call is a timeout, what has come back for it, or a failure
of the connection. -/
theorem Worked.answered {reply : WorldReply}
    (found : client.calls[index]? = some call) (listed : (index, reply) ∈ replies) :
    ∃ submission, call.submission = some submission ∧
      (submission.deadline ≤ client.clock ∧ reply = .error .timeout ∨
        (∃ frame, Answered after submission frame ∧ reply = WorldWorker.complete config frame) ∨
        event.Fails worker.phase.pending ∧ ∃ error, reply = .error error) := by
  obtain ⟨ticket, _, own, ⟨_, submission, again, submitted, sender, id, deadline, _⟩, reason⟩ :=
    worked.owned known.tickets listed
  rw [own, found] at again
  cases again
  refine ⟨submission, submitted, ?_⟩
  cases reason with
  | deadline passed => exact .inl ⟨deadline ▸ passed, rfl⟩
  | broken error fails => exact .inr (.inr ⟨fails, error, rfl⟩)
  | response connection frame read answers pended there =>
    obtain ⟨log, logged, _, perm, _⟩ := known.links.joined worked.found there
    have among := mem_of_mem_filter (perm.subset pended)
    obtain ⟨sent, member, numbered⟩ := mem_map.mp among
    obtain ⟨_, twin, twinned, called, twins, rfl, _⟩ := known.links.sent logged member
    cases known.ids.distinct found called submitted twins (id.trans numbered.symm)
    cases found.symm.trans called
    cases submitted.symm.trans twins
    refine .inr (.inl ⟨frame, ⟨connection,
      { log with received := frame :: log.received }, ?_, member, mem_cons_self,
      answers.trans id.symm⟩, rfl⟩)
    subst read
    obtain ⟨queue, _, pending, inputOpen, rfl⟩ := worked.works.selecting
    cases there
    rw [worked.connections]
    change (client.connections.modify connection _)[connection]? = _
    rw [getElem?_modify_found logged, if_pos rfl]

theorem Worked.fed {later : WorldCall}
    (found : client.calls[index]? = some call) (listed : (index, .ok payload) ∈ replies)
    (same : later.submission = call.submission) : Fed after later payload := by
  obtain ⟨submission, submitted, late | ⟨frame, answered, given⟩ | ⟨_, _, failed⟩⟩ :=
    worked.answered known found listed
  · cases late.2
  · exact ⟨submission, frame, same.trans submitted, answered, complete_ok given.symm⟩
  · cases failed

theorem Worked.failed {ticket : Ticket} {error : Error} (member : ticket ∈ worker.owned)
    (listed : (ticket.call, .error error) ∈ replies) : Failed after ticket.call := by
  obtain ⟨call, _, found, _, _, _, _, _, stage⟩ := known.tickets.owns worked.found member
  have looked : replies.lookup ticket.call = some (.error error) :=
    lookup_of_mem (worked.kept known.tickets (known.links.tidy worked.found)).1 listed
  have present : after.calls[ticket.call]? = some (call.send (.error error)) := by
    rw [worked.same, calls_answer, looked]
    change Option.map _ client.calls[ticket.call]? = _
    rw [found]
    rfl
  rcases stage with waiting | ⟨earlier, done⟩
  · exact ⟨_, error, present, .inl ⟨(send_stage _ _).trans waiting,
      send_reply waiting _⟩⟩
  · rw [send_done done] at present
    exact ⟨call, earlier, present, .inr done⟩

end

structure Settled (client : TcpWorldClient) : Prop where
  fed : ∀ {index : Nat} {call : WorldCall} {payload : List UInt8},
    client.calls[index]? = some call →
    call.reply = some (.ok payload) ∨ call.stage = .done (.ok payload) → Fed client call payload
  done : ∀ {index : Nat} {result : WorldReply} {time : Nat},
    (index, result, time) ∈ client.completions →
    ∃ call, client.calls[index]? = some call ∧ call.stage = .done result
  listed : ∀ {index : Nat} {call : WorldCall} {result : WorldReply},
    client.calls[index]? = some call → call.stage = .done result →
    ∃ time, (index, result, time) ∈ client.completions
  once : (client.completions.map Prod.fst).Nodup

section

variable (taken : Step config client action after)
include taken

theorem Step.completions :
    after.completions = client.completions ∨
      ∃ index call result, action = .poll index ∧ client.calls[index]? = some call ∧
        Returns client call result ∧
        after.calls = client.calls.set index { call with stage := .done result } ∧
        after.completions = (index, result, client.clock) :: client.completions := by
  cases taken.shape with
  | elapse | begin | enqueued | still => exact .inl rfl
  | returned polled current result _ present reason calls completions =>
    exact .inr ⟨polled, current, result, rfl, present, reason, calls, completions⟩
  | submitted _ _ _ _ _ _ _ _ _ completions => exact .inl completions
  | work _ _ _ _ _ _ worked =>
    rw [worked.same]
    exact .inl rfl

theorem Step.completions_subset :
    client.completions ⊆ after.completions := by
  rcases taken.completions with same | ⟨_, _, _, _, _, _, _, more⟩
  · rw [same]
    exact List.Subset.refl _
  · rw [more]
    exact subset_cons_self _ _

theorem Step.settled (sound : Sound config client)
    (known : Settled client) : Settled after where
  fed := by
    intro index later payload found given
    rcases taken.call_back found with ⟨call, old, step⟩ | ⟨_, none_, begun, _⟩
    · cases step with
      | same => exact (known.fed old given).step taken rfl
      | returned _ _ reason =>
        refine (known.fed old (.inl ?_)).step taken rfl
        rcases given with reply | done
        · exact reply
        · cases done
          cases reason with
          | answered _ _ given => exact given
      | submitted _ _ begun =>
        rcases given with reply | done
        · cases (sound.tickets.quiet old (.inl begun)).symm.trans reply
        · cases done
      | enqueued =>
        rcases given with reply | done
        · exact (known.fed old (.inl reply)).step taken rfl
        · cases done
      | answered reply worker event current next replies acts worked listed =>
        rw [send_stage] at given
        rcases given with replied | done
        · unfold send at replied
          split at replied
          · rename_i result done
            rw [send_done done]
            exact (known.fed old (.inl replied)).step taken rfl
          · cases replied
            exact worked.fed sound old listed (send_submission _ _)
        · exact (known.fed old (.inr done)).step taken (send_submission _ _)
    · rcases given with reply | done
      · cases none_.symm.trans reply
      · cases begun.symm.trans done
  done := by
    intro index result time member
    have kept (before : (index, result, time) ∈ client.completions) :
        ∃ call, after.calls[index]? = some call ∧ call.stage = .done result := by
      obtain ⟨call, found, done⟩ := known.done before
      obtain ⟨later, present, step⟩ := taken.call found
      cases step.done done
      exact ⟨call, present, done⟩
    rcases taken.completions with same | ⟨polled, call, returned, _, found, _, calls, more⟩
    · rw [same] at member
      exact kept member
    · rw [more] at member
      rcases mem_cons.mp member with own | before
      · cases own
        refine ⟨{ call with stage := .done result }, ?_, rfl⟩
        rw [calls, getElem?_set_found found]
        exact if_pos rfl
      · exact kept before
  listed := by
    intro index later result found done
    have kept {call : WorldCall} (old : client.calls[index]? = some call)
        (before : call.stage = .done result) : ∃ time, (index, result, time) ∈ after.completions := by
      obtain ⟨time, member⟩ := known.listed old before
      exact ⟨time, taken.completions_subset member⟩
    rcases taken.call_back found with ⟨call, old, step⟩ | ⟨_, _, begun, _⟩
    · cases step with
      | same => exact kept old done
      | returned _ _ _ completions =>
        cases done
        rw [completions]
        exact ⟨_, mem_cons_self⟩
      | submitted | enqueued => cases done
      | answered =>
        rw [send_stage] at done
        exact kept old done
    · cases begun.symm.trans done
  once := by
    rcases taken.completions with same | ⟨index, call, result, _, found, reason, _, more⟩
    · rw [same]
      exact known.once
    · rw [more, map_cons, nodup_cons]
      refine ⟨?_, known.once⟩
      intro among
      obtain ⟨⟨own, other, time⟩, member, same⟩ := mem_map.mp among
      cases same
      obtain ⟨twin, there, done⟩ := known.done member
      cases found.symm.trans there
      exact reason.undone other done

end

theorem settled_new (clock : Nat) : Settled (new clock) :=
  ⟨fun found => (nomatch found), fun member => (nomatch member), fun found => (nomatch found),
    List.nodup_nil⟩

theorem settled_of_run {clock : Nat} (run : RunWhen Regular (Step config) (new clock) client) :
    Sound config client ∧ Settled client := by
  refine run.invariant ?_ ⟨sound_new clock, settled_new clock⟩
  rintro before action after regular taken ⟨sound, settled⟩
  exact ⟨taken.sound regular sound, taken.settled sound settled⟩

end Answers

section Failures

theorem Failed.step (failed : Failed client index) (known : Ticketed client)
    (taken : Step config client action after) : Failed after index := by
  obtain ⟨call, error, found, told⟩ := failed
  obtain ⟨later, present, step⟩ := taken.call found
  rcases told with ⟨waiting, replied⟩ | done
  · cases step with
    | same => exact ⟨call, error, present, .inl ⟨waiting, replied⟩⟩
    | returned _ _ reason =>
      cases reason with
      | refused _ begun => cases waiting.symm.trans begun
      | unavailable | deadline => exact ⟨_, _, present, .inr rfl⟩
      | answered _ _ given =>
        cases replied.symm.trans given
        exact ⟨_, _, present, .inr rfl⟩
    | submitted _ _ begun | enqueued _ _ begun => cases waiting.symm.trans begun
    | answered _ _ _ _ _ _ _ worked listed =>
      obtain ⟨ticket, _, own, ⟨twin, _, there, _, _, _, _, unanswered, _⟩, _⟩ :=
        worked.owned known listed
      rw [own, found] at there
      cases there
      cases unanswered.symm.trans replied
  · cases step.done done
    exact ⟨call, error, present, .inr done⟩

theorem Failed.run {final : TcpWorldClient} (failed : Failed client index)
    (known : Sound config client) (run : RunWhen Regular (Step config) client final) :
    Sound config final ∧ Failed final index := by
  refine run.invariant ?_ ⟨known, failed⟩
  rintro before action after regular taken ⟨sound, failed⟩
  exact ⟨taken.sound regular sound, failed.step sound.tickets taken⟩

/-- The requests a worker has in flight when it leaves its connection. -/
theorem Step.leaves (taken : Step config client action after) (known : Sound config client)
    {connection : Nat} (acts : action = .work place event)
    (found : client.workers[place]? = some worker) (present : after.workers[place]? = some next)
    (on : worker.phase.connection = some connection) (off : next.phase.connection ≠ some connection)
    {ticket : Ticket} (member : ticket ∈ worker.inFlight) :
    (∃ frame, event = .read frame ∧ frame.requestId = ticket.id) ∨ Failed after ticket.call := by
  subst acts
  obtain ⟨current, moved, replies, worked⟩ := work_worked taken
  cases found.symm.trans worked.found
  have here : after.workers[place]? = some moved := by
    rw [worked.same]
    change (client.workers.set place moved)[place]? = _
    rw [getElem?_set_found found]
    exact if_pos rfl
  cases present.symm.trans here
  rcases worked.works.leaves (known.links.tidy found).1 on off member with own | ⟨error, listed⟩
  · exact .inl own
  · exact .inr (worked.failed known (WorldWorker.mem_owned_inFlight member) listed)

end Failures

section Late

def TimedOut (call : WorldCall) : Prop :=
  call.reply = some (.error .timeout) ∨ call.stage = .done (.error .timeout)

variable {frame : Frame} {submission : WorldSubmission} (known : Sound config client)
  (regular : Regular client (.work place (.read frame)))
  (found : client.calls[index]? = some call) (submitted : call.submission = some submission)
  (own : submission.frame.requestId = frame.requestId) (expired : TimedOut call)
include known regular found submitted own expired

theorem Worked.late {replies : List (Nat × WorldReply)}
    (worked : Worked config client place (.read frame) worker next replies after) {other : Nat}
    (answered : other ∈ replies.map Prod.fst) :
    other = index ∧ call.stage = .done (.error .timeout) := by
  obtain ⟨⟨called, reply⟩, listed, rfl⟩ := mem_map.mp answered
  obtain ⟨queue, connection, pending, inputOpen, rfl⟩ := worked.works.selecting
  obtain ⟨log, logged, _, perm, _⟩ := known.links.joined worked.found rfl
  have among : frame.requestId ∈ pending.ids :=
    perm.mem_iff.mpr (regular _ worked.found connection rfl log logged)
  cases worked.works with
  | unknown _ _ _ _ _ missing => exact absurd among (PendingWorld.find_eq_none missing)
  | read _ _ _ _ _ completion there =>
    obtain ⟨answer, member, same⟩ := mem_map.mp listed
    cases same
    have ticketed : ({ id := frame.requestId, call := called, deadline := completion.deadline } :
        Ticket) ∈ pending.tickets := by
      refine mem_filterMap.mpr ⟨_, PendingWorld.mem_of_find there, ?_⟩
      simp [PendingWorld.ticket, Option.mem_toList.mp member]
    obtain ⟨twin, twinned, again, twins, _, id, _, unanswered, stage⟩ :=
      known.tickets.owns worked.found (mem_append_right _ ticketed)
    cases known.ids.distinct again found twins submitted (id.trans own.symm)
    cases found.symm.trans again
    rcases expired with replied | done
    · cases unanswered.symm.trans replied
    · exact ⟨rfl, done⟩

theorem Step.late (taken : Step config client (.work place (.read frame)) after) :
    after.calls = client.calls ∧
      ∀ {other : Nat} {worker next : WorldWorker} {ticket : Ticket},
        client.workers[other]? = some worker → after.workers[other]? = some next →
        ticket ∈ worker.owned → ticket.call ≠ index → ticket ∈ next.owned := by
  obtain ⟨current, moved, replies, worked⟩ := work_worked taken
  have only {other : Nat} (answered : other ∈ replies.map Prod.fst) :=
    worked.late known regular found submitted own expired answered
  constructor
  · refine ext_getElem? (fun other => ?_)
    rw [worked.same]
    by_cases answered : other ∈ replies.map Prod.fst
    · obtain ⟨rfl, done⟩ := only answered
      rw [calls_answer]
      change Option.map _ client.calls[other]? = _
      rw [found]
      split
      · exact congrArg some (send_done done _)
      · rfl
    · exact calls_answer_others answered
  · intro other worker next ticket old present member apart
    rcases taken.worker present with ⟨before, again, step⟩ | ⟨absent, _⟩
    · cases old.symm.trans again
      cases step with
      | same => exact member
      | enqueued _ _ _ acts => cases acts
      | worked _ _ _ acts twin =>
        obtain ⟨distinct, unsent⟩ := known.links.tidy old
        obtain ⟨replied, same, perm⟩ := twin.works.owned distinct unsent
        cases acts
        cases old.symm.trans worked.found
        cases twin.stepped.symm.trans worked.stepped
        rcases mem_append.mp (perm.mem_iff.mpr member) with answered | kept
        · have told : ticket.call ∈ replies.map Prod.fst :=
            same ▸ mem_map_of_mem answered
          exact absurd (only told).1 apart
        · exact kept
    · cases absent.symm.trans old

end Late

section Progress

def rank : WorldCallStage → Nat
  | .begun => 3
  | .enqueueing => 2
  | .waiting => 1
  | .done _ => 0

theorem CallStep.moves {later : WorldCall} (known : Identified client)
    (found : client.calls[index]? = some call)
    (step : CallStep config client action after index call later) :
    rank later.stage ≤ rank call.stage ∧
      ∀ submission, call.submission = some submission → later.submission = some submission := by
  cases step with
  | same => exact ⟨le_rfl, fun _ submitted => submitted⟩
  | returned => exact ⟨Nat.zero_le _, fun _ submitted => submitted⟩
  | submitted _ _ begun =>
    refine ⟨?_, fun other submitted => ?_⟩
    · rw [begun]
      exact Nat.le_succ 2
    · cases (known.begun found begun).symm.trans submitted
  | enqueued _ _ stage submitted =>
    refine ⟨?_, fun _ submitted => submitted⟩
    rw [stage]
    exact Nat.le_succ 1
  | answered =>
    rw [send_stage, send_submission]
    exact ⟨le_rfl, fun _ submitted => submitted⟩

theorem Step.clock (taken : Step config client action after) : client.clock ≤ after.clock := by
  cases taken.shape with
  | elapse =>
    assumption
  | begin | enqueued | still => exact le_rfl
  | returned _ _ _ _ _ _ _ _ _ _ _ _ clock | submitted _ _ _ _ _ _ _ _ _ _ _ _ _ clock =>
    exact le_of_eq clock.symm
  | work _ _ _ _ _ _ worked =>
    rw [worked.same]
    exact le_rfl

theorem clock_of_run {final : TcpWorldClient}
    (run : RunWhen Regular (Step config) client final) : client.clock ≤ final.clock := by
  refine run.invariant ?_ le_rfl
  intro before action after _ taken bound
  exact bound.trans taken.clock

theorem moves_of_run {final : TcpWorldClient} (run : RunWhen Regular (Step config) client final)
    (known : Sound config client) (found : client.calls[index]? = some call) :
    ∃ later, final.calls[index]? = some later ∧ rank later.stage ≤ rank call.stage ∧
      ∀ submission, call.submission = some submission → later.submission = some submission := by
  suffices moved : Sound config final ∧ ∃ later, final.calls[index]? = some later ∧
      rank later.stage ≤ rank call.stage ∧
      ∀ submission, call.submission = some submission → later.submission = some submission from
    moved.2
  refine run.invariant ?_ ⟨known, call, found, le_rfl, fun _ => id⟩
  rintro before action after regular taken ⟨sound, later, present, bound, kept⟩
  obtain ⟨last, there, step⟩ := taken.call present
  obtain ⟨lower, same⟩ := step.moves sound.ids present
  exact ⟨taken.sound regular sound, last, there, lower.trans bound,
    fun submission submitted => same submission (kept submission submitted)⟩

theorem poll_enabled (config : WorldClientConfig) (known : Identified client)
    (found : client.calls[index]? = some call) (undone : ∀ result, call.stage ≠ .done result) :
    ∃ after, Step config client (.poll index) after := by
  refine Option.isSome_iff_exists.mp ?_
  simp only [step, poll, found, bind, Option.bind]
  cases stage : call.stage with
  | begun => rfl
  | enqueueing | waiting =>
    obtain ⟨submission, worker, submitted, present⟩ := known.under found (by simp [Under, stage])
    simp only [submitted, present]
    repeat' split
    all_goals rfl
  | done result => exact absurd stage (undone result)

theorem Step.gets_on (taken : Step config client (.poll index) after)
    (found : client.calls[index]? = some call) (positive : 0 < rank call.stage)
    (due : ∀ submission, call.submission = some submission → submission.deadline ≤ client.clock) :
    ∃ later, after.calls[index]? = some later ∧ rank later.stage < rank call.stage := by
  have written {later : WorldCall} (calls : after.calls = client.calls.set index later) :
      after.calls[index]? = some later := by
    rw [calls, getElem?_set_found found]
    exact if_pos rfl
  cases taken.shape with
  | returned _ _ _ _ present _ calls =>
    cases found.symm.trans present
    exact ⟨_, written calls, positive⟩
  | submitted _ _ _ _ present begun _ _ calls =>
    cases found.symm.trans present
    rw [begun]
    exact ⟨_, written calls, Nat.lt_succ_self 2⟩
  | enqueued _ _ _ _ present stage =>
    cases found.symm.trans present
    rw [stage]
    exact ⟨_, written rfl, Nat.lt_succ_self 1⟩
  | still _ _ submission present _ submitted early =>
    cases found.symm.trans present
    exact absurd early (Nat.not_lt.mpr (due submission submitted))

theorem begun_of_rank {stage : WorldCallStage} (bound : rank .begun ≤ rank stage) :
    stage = .begun := by
  cases stage with
  | begun => rfl
  | enqueueing | waiting => exact absurd bound (by decide)
  | done => exact absurd bound (Nat.not_succ_le_zero 2)

theorem Identified.begun_of_unsubmitted (known : Identified client)
    (found : client.calls[index]? = some call) (unsubmitted : call.submission = none)
    (positive : 0 < rank call.stage) : call.stage = .begun := by
  cases stage : call.stage with
  | begun => rfl
  | enqueueing | waiting =>
    obtain ⟨_, _, submitted, _⟩ := known.under found (by simp [Under, stage])
    cases unsubmitted.symm.trans submitted
  | done =>
    rw [stage] at positive
    exact absurd positive (Nat.lt_irrefl 0)

variable {allowed : TcpWorldClient → Action → Prop} {first : TcpWorldClient}

structure Fair (run : EndlessRun allowed (Step config) first) : Prop where
  passes : ∀ moment, ∃ time, moment ≤ (run.state time).clock
  polls : ∀ time index call, (run.state time).calls[index]? = some call →
    (∀ result, call.stage ≠ .done result) → ∃ later, time ≤ later ∧ run.action later = .poll index

section

variable {run : EndlessRun allowed (Step config) first} (fair : Fair run)
  (regular : ∀ state action, allowed state action → Regular state action)
  (known : ∀ time, Sound config (run.state time)) {time : Nat}
  (found : (run.state time).calls[index]? = some call)
include fair regular known found

theorem Fair.moves (positive : 0 < rank call.stage) :
    ∃ later next, time ≤ later ∧ (run.state later).calls[index]? = some next ∧
      rank next.stage < rank call.stage := by
  obtain ⟨moment, passed⟩ := fair.passes ((call.submission.map (·.deadline)).getD 0)
  have start := (run.between (Nat.le_max_left time moment)).mono regular
  have clocks := clock_of_run ((run.between (Nat.le_max_right time moment)).mono regular)
  obtain ⟨second, there, lower, kept⟩ := moves_of_run start (known time) found
  rcases Nat.lt_or_ge (rank second.stage) (rank call.stage) with less | same
  · exact ⟨_, second, Nat.le_max_left time moment, there, less⟩
  have undone : ∀ result, second.stage ≠ .done result := by
    intro result done
    rw [done] at same
    exact Nat.not_lt.mpr same positive
  obtain ⟨last, after_, polled⟩ := fair.polls _ index second there undone
  have further := (run.between after_).mono regular
  obtain ⟨third, present, bound, still⟩ := moves_of_run further (known _) there
  rcases Nat.lt_or_ge (rank third.stage) (rank call.stage) with less | equal
  · exact ⟨last, third, (Nat.le_max_left time moment).trans after_, present, less⟩
  have taken := run.takes last
  rw [polled] at taken
  have due : ∀ submission, third.submission = some submission →
      submission.deadline ≤ (run.state last).clock := by
    intro submission submitted
    refine le_trans ?_ (clocks.trans (clock_of_run further))
    have known_ : call.submission = some submission := by
      cases before : call.submission with
      | some => exact (still _ (kept _ before)).symm.trans submitted
      | none =>
        have begun := (known time).ids.begun_of_unsubmitted found before positive
        rw [begun] at equal
        cases ((known last).ids.begun present (begun_of_rank equal)).symm.trans submitted
    rw [known_] at passed
    exact passed
  obtain ⟨next, here, less⟩ := taken.gets_on present (Nat.lt_of_lt_of_le positive equal) due
  exact ⟨last + 1, next, ((Nat.le_max_left time moment).trans after_).trans (Nat.le_succ _), here,
    Nat.lt_of_lt_of_le less (bound.trans lower)⟩

/-- Every call returns. -/
theorem Fair.returns :
    ∃ later final result, time ≤ later ∧ (run.state later).calls[index]? = some final ∧
      final.stage = .done result := by
  generalize bound : rank call.stage = steps
  induction steps using Nat.strongRecOn generalizing time call with
  | ind _ ih =>
    rcases Nat.eq_zero_or_pos (rank call.stage) with zero | positive
    · cases stage : call.stage with
      | done result => exact ⟨time, call, result, le_rfl, found, stage⟩
      | begun | enqueueing | waiting =>
        rw [stage] at zero
        cases zero
    · obtain ⟨later, next, after_, present, less⟩ := fair.moves regular known found positive
      obtain ⟨last, final, result, further, there, done⟩ :=
        ih (rank next.stage) (bound ▸ less) present rfl
      exact ⟨last, final, result, after_.trans further, there, done⟩

end

end Progress

section Commands

/-- A response to a request that has timed out changes no call, and no other request
leaves its worker. -/
def DiscardsLate (client : TcpWorldClient) (action : Action) (after : TcpWorldClient) : Prop :=
  ∀ (place index : Nat) (frame : Frame) (call : WorldCall) (submission : WorldSubmission),
    action = .work place (.read frame) → client.calls[index]? = some call →
    call.submission = some submission → submission.frame.requestId = frame.requestId →
    TimedOut call → after.calls = client.calls ∧
      ∀ (other : Nat) (worker next : WorldWorker) (ticket : Ticket),
        client.workers[other]? = some worker → after.workers[other]? = some next →
        ticket ∈ worker.owned → ticket.call ≠ index → ticket ∈ next.owned

/-- When a worker leaves its connection, every request in flight on it fails, but for
one whose response is what the worker has just read. -/
def FailsInFlight (config : WorldClientConfig) (client : TcpWorldClient) (action : Action)
    (after : TcpWorldClient) : Prop :=
  ∀ (place connection : Nat) (event : WorkerEvent) (worker next : WorldWorker),
    action = .work place event → client.workers[place]? = some worker →
    after.workers[place]? = some next → worker.phase.connection = some connection →
    next.phase.connection ≠ some connection → ∀ ticket ∈ worker.inFlight,
      (∃ frame, event = .read frame ∧ frame.requestId = ticket.id) ∨
        Failed after ticket.call ∧
          ∀ final, RunWhen Regular (Step config) after final →
            ∀ result time, (ticket.call, result, time) ∈ final.completions →
              ∃ error, result = .error error

theorem responses_kept_apart (config : WorldClientConfig) (clock : Nat) :
    (∀ client, RunWhen Regular (Step config) (new clock) client →
      (client.completions.map Prod.fst).Nodup ∧
      (∀ index payload time, (index, .ok payload, time) ∈ client.completions →
        ∃ call, client.calls[index]? = some call ∧ Fed client call payload) ∧
      (∀ (index other : Nat) (left right : WorldCall) (submission twin : WorldSubmission),
        client.calls[index]? = some left → client.calls[other]? = some right →
        left.submission = some submission → right.submission = some twin →
        submission.frame.requestId = twin.frame.requestId → index = other) ∧
      (∀ log ∈ client.connections, log.unanswered.length ≤ config.maxInFlight) ∧
      (∀ index call, client.calls[index]? = some call →
        (∀ result, call.stage ≠ .done result) → ∃ after, Step config client (.poll index) after) ∧
      ∀ action after, Regular client action → Step config client action after →
        DiscardsLate client action after ∧ FailsInFlight config client action after) ∧
    ∀ run : EndlessRun Regular (Step config) (new clock), Fair run →
      ∀ time index call, (run.state time).calls[index]? = some call →
        ∃ later result moment, time ≤ later ∧
          (index, result, moment) ∈ (run.state later).completions := by
  constructor
  · intro client run
    obtain ⟨sound, settled⟩ := settled_of_run run
    refine ⟨settled.once, ?_, ?_, ?_, ?_, ?_⟩
    · intro index payload time member
      obtain ⟨call, found, done⟩ := settled.done member
      exact ⟨call, found, settled.fed found (.inr done)⟩
    · intro index other left right submission twin
      exact sound.ids.distinct
    · intro log member
      obtain ⟨connection, there⟩ := getElem?_of_mem member
      exact sound.links.limit there
    · intro index call found undone
      exact poll_enabled config sound.ids found undone
    · intro action after regular taken
      constructor
      · rintro place index frame call submission rfl found submitted own late
        obtain ⟨calls, kept⟩ := taken.late sound regular found submitted own late
        exact ⟨calls, fun other worker next ticket => kept⟩
      · intro place connection event worker next acts found present on off ticket member
        refine (taken.leaves sound acts found present on off member).imp_right ?_
        intro failed
        refine ⟨failed, fun final continued result moment listed => ?_⟩
        obtain ⟨_, call, error, there, told⟩ :=
          failed.run (taken.sound regular sound) continued
        have whole := settled_of_run ((run.take taken regular).trans continued)
        obtain ⟨twin, again, done⟩ := whole.2.done listed
        cases there.symm.trans again
        rcases told with ⟨waiting, _⟩ | failed
        · cases waiting.symm.trans done
        · cases failed.symm.trans done
          exact ⟨error, rfl⟩
  · intro run fair time index call found
    have known : ∀ time, Sound config (run.state time) ∧ Settled (run.state time) :=
      fun time => settled_of_run (run.reaches time)
    obtain ⟨later, final, result, after_, present, done⟩ :=
      fair.returns (fun _ _ regular => regular) (fun time => (known time).1) found
    obtain ⟨moment, listed⟩ := (known later).2.listed present done
    exact ⟨later, result, moment, after_, listed⟩

instance decidableRegular (client : TcpWorldClient) :
    (action : Action) → Decidable (Regular client action)
  | .poll _ => inferInstanceAs (Decidable (_ ≠ _))
  | .work _ (.read _) => inferInstanceAs (Decidable (∀ worker ∈ _, ∀ connection ∈ _, ∀ log ∈ _, _))
  | .elapse _ | .begin _ | .work _ .receive | .work _ .close | .work _ .connected
  | .work _ (.connectFailed _) | .work _ .connectExpired | .work _ .written
  | .work _ .writeFailed | .work _ .writeExpired | .work _ .readFailed | .work _ .expire =>
    isTrue trivial

end Commands

section Schedules

variable (config : WorldClientConfig) (schedule : List Action)

def planned (time : Nat) : Action :=
  schedule.getD time (.elapse (10 ^ 12 + time))

def plannedState (time : Nat) : TcpWorldClient :=
  EndlessRun.walk (step config) (planned schedule) (new 0) time

def Possible (allowed : TcpWorldClient → Action → Prop) (time : Nat) : Prop :=
  allowed (plannedState config schedule time) (planned schedule time) ∧
    (step config (plannedState config schedule time) (planned schedule time)).isSome

structure Complete (allowed : TcpWorldClient → Action → Prop) : Prop where
  possible : ∀ time < schedule.length, Possible config schedule allowed time
  clock : (plannedState config schedule schedule.length).clock ≤ 10 ^ 12
  ended : ∀ call ∈ (plannedState config schedule schedule.length).calls, rank call.stage = 0
  polled : ∀ time < schedule.length,
    ∀ index < (plannedState config schedule time).calls.length,
      (∀ call ∈ (plannedState config schedule time).calls[index]?, rank call.stage = 0) ∨
        ∃ later < schedule.length, time ≤ later ∧ planned schedule later = .poll index

variable {config schedule} {allowed : TcpWorldClient → Action → Prop}

theorem planned_late {time : Nat} (late : schedule.length ≤ time) :
    planned schedule time = .elapse (10 ^ 12 + time) :=
  List.getD_eq_default schedule _ late

theorem planned_elapse {time : Nat} (late : schedule.length ≤ time)
    (bound : (plannedState config schedule time).clock ≤ 10 ^ 12 + time) :
    step config (plannedState config schedule time) (planned schedule time) =
      some { plannedState config schedule time with clock := 10 ^ 12 + time } := by
  rw [planned_late late]
  exact if_pos bound

theorem plannedState_succ {time : Nat} (late : schedule.length ≤ time)
    (bound : (plannedState config schedule time).clock ≤ 10 ^ 12 + time) :
    plannedState config schedule (time + 1) =
      { plannedState config schedule time with clock := 10 ^ 12 + time } := by
  change (step config (plannedState config schedule time) (planned schedule time)).getD _ = _
  rw [planned_elapse late bound]
  rfl

theorem Complete.late (complete : Complete config schedule allowed) {time : Nat}
    (late : schedule.length ≤ time) :
    (plannedState config schedule time).clock ≤ 10 ^ 12 + time ∧
      ∀ call ∈ (plannedState config schedule time).calls, rank call.stage = 0 := by
  induction time, late using Nat.le_induction with
  | base => exact ⟨complete.clock.trans (Nat.le_add_right _ _), complete.ended⟩
  | succ time late ih =>
    rw [plannedState_succ late ih.1]
    exact ⟨Nat.add_le_add_left (Nat.le_succ time) _, ih.2⟩

theorem Complete.all_possible (complete : Complete config schedule allowed)
    (elapses : ∀ state later, allowed state (.elapse later)) (time : Nat) :
    Possible config schedule allowed time := by
  rcases Nat.lt_or_ge time schedule.length with early | late
  · exact complete.possible time early
  · unfold Possible
    rw [planned_elapse late (complete.late late).1, planned_late late]
    exact ⟨elapses _ _, rfl⟩

def plannedRun (complete : Complete config schedule allowed)
    (elapses : ∀ state later, allowed state (.elapse later)) :
    EndlessRun allowed (Step config) (new 0) :=
  EndlessRun.ofPlan (complete.all_possible elapses)

theorem planned_fair (complete : Complete config schedule allowed)
    (elapses : ∀ state later, allowed state (.elapse later)) :
    Fair (plannedRun complete elapses) where
  passes := by
    intro moment
    have late : schedule.length ≤ max schedule.length moment := le_max_left _ _
    refine ⟨max schedule.length moment + 1, ?_⟩
    change moment ≤ (plannedState config schedule (max schedule.length moment + 1)).clock
    rw [plannedState_succ late (complete.late late).1]
    exact (le_max_right _ _).trans (Nat.le_add_left _ _)
  polls := by
    intro time index call found undone
    change (plannedState config schedule time).calls[index]? = some call at found
    have positive : rank call.stage ≠ 0 := by
      cases stage : call.stage with
      | done result => exact absurd stage (undone result)
      | begun | enqueueing | waiting => exact Nat.succ_ne_zero _
    rcases Nat.lt_or_ge time schedule.length with early | late
    · rcases complete.polled time early index (List.getElem?_eq_some_iff.mp found).1 with
        ended | ⟨later, _, after_, polled⟩
      · exact absurd (ended call found) positive
      · exact ⟨later, after_, polled⟩
    · exact absurd ((complete.late late).2 call (List.mem_of_getElem? found)) positive

def responseTo (requestId : UInt64) (payload : List UInt8) : Frame where
  kind := .response
  flags := 0
  route := 100
  requestId
  sequence := 0
  payload

def oneCommand : List Action :=
  [.begin { route := 100, payload := [1], timeout := .ofSecs 1 }, .poll 0, .poll 0,
    .work 0 .receive, .work 0 .connected, .work 0 .written, .work 0 (.read (responseTo 1 [7])),
    .poll 0]

theorem oneCommand_complete :
    Complete (.new (10 ^ 20) (fun _ => none)) oneCommand Regular where
  possible := by
    unfold Possible
    decide +kernel
  clock := by decide +kernel
  ended := by decide +kernel
  polled := by decide +kernel

/-- A call whose response comes back, and a run in which it does. -/
theorem one_command_returns :
    (∃ client, RunWhen Regular (Step (.new (10 ^ 20) (fun _ => none))) (new 0) client ∧
      (0, .ok [7], 0) ∈ client.completions ∧
      ∃ call, client.calls[0]? = some call ∧ Fed client call [7]) ∧
    ∃ run : EndlessRun Regular (Step (.new (10 ^ 20) (fun _ => none))) (new 0), Fair run ∧
      ∃ later result moment, 1 ≤ later ∧ (0, result, moment) ∈ (run.state later).completions := by
  have apart := responses_kept_apart (.new (10 ^ 20) (fun _ => none)) 0
  have elapses : ∀ state later, Regular state (.elapse later) := fun _ _ => trivial
  let run := plannedRun oneCommand_complete elapses
  have fair : Fair run := planned_fair oneCommand_complete elapses
  have listed : (0, .ok [7], 0) ∈
      (plannedState (.new (10 ^ 20) (fun _ => none)) oneCommand 8).completions := by
    decide +kernel
  have begun : ∃ call, (run.state 1).calls[0]? = some call := ⟨_, rfl⟩
  obtain ⟨call, found⟩ := begun
  have reached := run.reaches 8
  exact ⟨⟨_, reached, listed, (apart.1 _ reached).2.1 0 [7] 0 listed⟩, run, fair,
    apart.2 run fair 1 0 call found⟩

end Schedules

end TcpWorldClient

end Elura
