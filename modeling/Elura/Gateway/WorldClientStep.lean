import Elura.Basis.Slots
import Elura.Gateway.WorldWorker

/-!
The steps of a world client in the few shapes that matter: a call returns, is given
its id, enters the queue of its worker or goes on waiting; or a worker takes a step
and answers some of the calls whose requests it owns.
-/

namespace Elura

namespace TcpWorldClient

variable {config : WorldClientConfig} {client after : TcpWorldClient} {index : Nat}
variable {action : Action}

def Under (call : WorldCall) : Prop :=
  call.stage = .enqueueing ∨ call.stage = .waiting

inductive Returns (client : TcpWorldClient) (call : WorldCall) : WorldReply → Prop
  | refused (error : Error) (begun : call.stage = .begun) : Returns client call (.error error)
  | unavailable (submission : WorldSubmission) (worker : WorldWorker) (under : Under call)
      (submitted : call.submission = some submission)
      (found : client.workers[submission.sender]? = some worker)
      (finished : worker.phase = .finished) : Returns client call (.error .unavailable)
  | deadline (submission : WorldSubmission) (under : Under call)
      (submitted : call.submission = some submission)
      (passed : submission.deadline ≤ client.clock) : Returns client call (.error .timeout)
  | answered (reply : WorldReply) (waiting : call.stage = .waiting)
      (given : call.reply = some reply) : Returns client call reply

def Spawned (client after : TcpWorldClient) : Prop :=
  after.workers = client.workers ∨
    after.workers = client.workers ++ [{ queue := [], phase := .idle }]

def Chosen (client after : TcpWorldClient) (slot sender : Nat) : Prop :=
  client.pool slot = some sender ∧ after.pool = client.pool ∧ after.workers = client.workers ∧
      (∃ worker, client.workers[sender]? = some worker) ∨
    sender = client.workers.length ∧
      after.pool = Function.update client.pool slot (some sender) ∧
      after.workers = client.workers ++ [{ queue := [], phase := .idle }]

theorem Chosen.spawned {slot sender : Nat} (chosen : Chosen client after slot sender) :
    Spawned client after := by
  rcases chosen with ⟨_, _, same, _⟩ | ⟨_, _, more⟩
  · exact .inl same
  · exact .inr more

def Repooled (client after : TcpWorldClient) (slot : Nat) : Prop :=
  after.pool = client.pool ∨ after.pool = Function.update client.pool slot none ∨
    ∃ sender, Chosen client after slot sender

structure Worked (config : WorldClientConfig) (client : TcpWorldClient) (index : Nat)
    (event : WorkerEvent) (worker next : WorldWorker) (replies : List (Nat × WorldReply))
    (after : TcpWorldClient) : Prop where
  found : client.workers[index]? = some worker
  unheld : event = .close → client.held config index = false
  stepped : worker.step config client.clock client.connections.length event = some (next, replies)
  same : after = { client with
    workers := client.workers.set index next
    connections := client.record index worker event }.answer replies

theorem Worked.works {event : WorkerEvent} {worker next : WorldWorker}
    {replies : List (Nat × WorldReply)}
    (worked : Worked config client index event worker next replies after) :
    WorldWorker.Works config client.clock client.connections.length worker event next replies :=
  WorldWorker.step_works worked.stepped

inductive Shape (config : WorldClientConfig) (client : TcpWorldClient) :
    Action → TcpWorldClient → Prop
  | elapse (later : Nat) (forward : client.clock ≤ later) :
      Shape config client (.elapse later) { client with clock := later }
  | begin (request : WorldRequest) :
      Shape config client (.begin request) { client with
        next := client.next + 1
        calls := client.calls ++ [{
          slot := client.next.toNat % config.poolSize
          request
          submission := none
          reply := none
          stage := .begun }] }
  | returned (index : Nat) (call : WorldCall) (result : WorldReply) (after : TcpWorldClient)
      (found : client.calls[index]? = some call) (reason : Returns client call result)
      (calls : after.calls = client.calls.set index { call with stage := .done result })
      (completions : after.completions = (index, result, client.clock) :: client.completions)
      (workers : Spawned client after) (pool : Repooled client after call.slot)
      (connections : after.connections = client.connections)
      (id : after.transportRequestId = client.transportRequestId ∨
        after.transportRequestId = nextTransportRequestId client.transportRequestId)
      (clock : after.clock = client.clock) : Shape config client (.poll index) after
  | submitted (index : Nat) (call : WorldCall) (submission : WorldSubmission)
      (after : TcpWorldClient) (found : client.calls[index]? = some call)
      (begun : call.stage = .begun)
      (number : submission.frame.requestId = client.transportRequestId)
      (due : submission.deadline = client.clock + call.request.timeout)
      (calls : after.calls = client.calls.set index { call with
        submission := some submission
        stage := .enqueueing })
      (completions : after.completions = client.completions)
      (chosen : Chosen client after call.slot submission.sender)
      (connections : after.connections = client.connections)
      (id : after.transportRequestId = nextTransportRequestId client.transportRequestId)
      (clock : after.clock = client.clock) : Shape config client (.poll index) after
  | enqueued (index : Nat) (call : WorldCall) (submission : WorldSubmission)
      (worker : WorldWorker) (found : client.calls[index]? = some call)
      (stage : call.stage = .enqueueing) (submitted : call.submission = some submission)
      (present : client.workers[submission.sender]? = some worker) :
      Shape config client (.poll index) (client.enqueue index call submission worker)
  | still (index : Nat) (call : WorldCall) (submission : WorldSubmission)
      (found : client.calls[index]? = some call) (under : Under call)
      (submitted : call.submission = some submission)
      (early : client.clock < submission.deadline) : Shape config client (.poll index) client
  | work (index : Nat) (event : WorkerEvent) (worker next : WorldWorker)
      (replies : List (Nat × WorldReply)) (after : TcpWorldClient)
      (worked : Worked config client index event worker next replies after) :
      Shape config client (.work index event) after

theorem connectionSender_spec (client : TcpWorldClient) (slot : Nat) :
    Chosen client (client.connectionSender slot).2 slot (client.connectionSender slot).1 ∧
      (client.connectionSender slot).2.calls = client.calls ∧
      (client.connectionSender slot).2.completions = client.completions ∧
      (client.connectionSender slot).2.connections = client.connections ∧
      (client.connectionSender slot).2.transportRequestId = client.transportRequestId ∧
      (client.connectionSender slot).2.clock = client.clock := by
  unfold connectionSender
  split
  · rename_i sender pooled
    split
    · rename_i open_
      cases found : client.workers[sender]? with
      | none =>
        rw [found] at open_
        cases open_
      | some worker => exact ⟨.inl ⟨pooled, rfl, rfl, worker, found⟩, rfl, rfl, rfl, rfl, rfl⟩
    · exact ⟨.inr ⟨rfl, rfl, rfl⟩, rfl, rfl, rfl, rfl, rfl⟩
  · exact ⟨.inr ⟨rfl, rfl, rfl⟩, rfl, rfl, rfl, rfl, rfl⟩

theorem request_id {route : UInt32} {id : UInt64} {payload : List UInt8} {frame : Frame}
    (made : Frame.request route id payload = .ok frame) : frame.requestId = id := by
  unfold Frame.request at made
  split at made
  · cases made
  · split_ifs at made
    cases made
    rfl

theorem submit_shape {call : WorldCall} (found : client.calls[index]? = some call)
    (begun : call.stage = .begun) : Shape config client (.poll index) (client.submit config index call) := by
  have chooses := connectionSender_spec { client with
    transportRequestId := nextTransportRequestId client.transportRequestId } call.slot
  unfold submit
  simp only
  revert chooses
  generalize connectionSender _ _ = chosen
  rintro ⟨chosen_, calls, completions, connections, id, clock⟩
  split
  · exact .returned index call _ _ found (.refused _ begun) rfl rfl (.inl rfl) (.inl rfl) rfl
      (.inr rfl) rfl
  · rename_i frame made
    split
    · refine .submitted index call ⟨frame, chosen.1, client.clock + call.request.timeout⟩ _ found
        begun (request_id made) rfl ?_ completions chosen_ connections id clock
      change chosen.2.calls.set index _ = _
      rw [calls]
    · refine .returned index call (.error (.invalidConfig "World request timeout is too large")) _ found
        (.refused _ begun) ?_ ?_ chosen_.spawned (.inr (.inr ⟨_, chosen_⟩)) connections
        (.inr id) clock
      · change chosen.2.calls.set index _ = _
        rw [calls]
      · change (index, _, chosen.2.clock) :: chosen.2.completions = _
        rw [clock, completions]

theorem poll_shape (polled : client.poll config index = some after) :
    Shape config client (.poll index) after := by
  obtain ⟨call, found, polled⟩ := Option.bind_eq_some_iff.mp polled
  have finished {result : WorldReply} (reason : Returns client call result) :
      Shape config client (.poll index) (client.finish index call result) :=
    .returned index call _ _ found reason rfl rfl (.inl rfl) (.inl rfl) rfl (.inl rfl) rfl
  split at polled
  · rename_i begun
    cases polled
    exact submit_shape found begun
  · rename_i submission stage submitted
    obtain ⟨worker, present, polled⟩ := Option.bind_eq_some_iff.mp polled
    split at polled
    · rename_i gone
      cases polled
      exact finished (.unavailable submission worker (.inl stage) submitted present gone)
    · split at polled
      · cases polled
        exact .enqueued index call submission worker found stage submitted present
      · split at polled
        · rename_i passed
          cases polled
          exact finished (.deadline submission (.inl stage) submitted passed)
        · rename_i early
          cases polled
          exact .still index call submission found (.inl stage) submitted (Nat.not_le.mp early)
  · rename_i submission stage submitted
    obtain ⟨worker, present, polled⟩ := Option.bind_eq_some_iff.mp polled
    split at polled
    · rename_i reply given
      cases polled
      exact finished (.answered reply stage given)
    · split at polled
      · rename_i gone
        cases polled
        exact finished (.unavailable submission worker (.inr stage) submitted present gone)
      · split at polled
        · rename_i passed
          cases polled
          have reason := Returns.deadline submission (.inr stage) submitted passed
          unfold invalidateConnectionSender
          split
          · exact .returned index call _ _ found reason rfl rfl (.inl rfl) (.inr (.inl rfl)) rfl
              (.inl rfl) rfl
          · exact finished reason
        · rename_i early
          cases polled
          exact .still index call submission found (.inr stage) submitted (Nat.not_le.mp early)
  · cases polled

theorem work_worked {event : WorkerEvent} (worked : client.work config index event = some after) :
    ∃ worker next replies, Worked config client index event worker next replies after := by
  obtain ⟨worker, found, worked⟩ := Option.bind_eq_some_iff.mp worked
  split_ifs at worked with open_
  obtain ⟨outcome, taken, worked⟩ := Option.bind_eq_some_iff.mp worked
  cases worked
  refine ⟨worker, outcome.1, outcome.2, found, ?_, taken, rfl⟩
  intro closes
  exact Bool.eq_false_iff.mpr (fun held => open_ ⟨closes, held⟩)

theorem Step.shape (taken : Step config client action after) :
    Shape config client action after := by
  cases action with
  | elapse later =>
    simp only [Step, step] at taken
    split_ifs at taken with forward
    cases taken
    exact .elapse later forward
  | begin request =>
    cases taken
    exact .begin request
  | poll => exact poll_shape taken
  | work worker event =>
    obtain ⟨current, next, replies, worked⟩ := work_worked taken
    exact .work worker event current next replies after worked

theorem calls_answer (client : TcpWorldClient) (replies : List (Nat × WorldReply)) (other : Nat) :
    (client.answer replies).calls[other]? = client.calls[other]?.map (fun call =>
      match replies.lookup other with
      | some reply => call.send reply
      | none => call) :=
  List.getElem?_mapIdx

theorem calls_answer_others {replies : List (Nat × WorldReply)} {other : Nat}
    (silent : other ∉ replies.map Prod.fst) :
    (client.answer replies).calls[other]? = client.calls[other]? := by
  have none_ : replies.lookup other = none := by
    rw [List.lookup_eq_none_iff]
    intro reply member
    simp only [bne_iff_ne]
    rintro rfl
    exact silent (List.mem_map_of_mem member)
  rw [calls_answer, none_]
  exact Option.map_id'

inductive CallStep (config : WorldClientConfig) (client : TcpWorldClient) (action : Action)
    (after : TcpWorldClient) (index : Nat) (call : WorldCall) : WorldCall → Prop
  | same : CallStep config client action after index call call
  | returned (result : WorldReply) (acts : action = .poll index)
      (reason : Returns client call result)
      (completions : after.completions = (index, result, client.clock) :: client.completions) :
      CallStep config client action after index call { call with stage := .done result }
  | submitted (submission : WorldSubmission) (acts : action = .poll index)
      (begun : call.stage = .begun)
      (number : submission.frame.requestId = client.transportRequestId)
      (due : submission.deadline = client.clock + call.request.timeout)
      (chosen : Chosen client after call.slot submission.sender)
      (id : after.transportRequestId = nextTransportRequestId client.transportRequestId) :
      CallStep config client action after index call
        { call with submission := some submission, stage := .enqueueing }
  | enqueued (submission : WorldSubmission) (acts : action = .poll index)
      (stage : call.stage = .enqueueing) (submitted : call.submission = some submission) :
      CallStep config client action after index call { call with stage := .waiting }
  | answered (reply : WorldReply) (worker : Nat) (event : WorkerEvent)
      (current next : WorldWorker) (replies : List (Nat × WorldReply))
      (acts : action = .work worker event)
      (worked : Worked config client worker event current next replies after)
      (listed : (index, reply) ∈ replies) :
      CallStep config client action after index call (call.send reply)

theorem Step.call (taken : Step config client action after) {call : WorldCall}
    (found : client.calls[index]? = some call) :
    ∃ later, after.calls[index]? = some later ∧
      CallStep config client action after index call later := by
  have replaced {polled : Nat} {current moved : WorldCall}
      (present : client.calls[polled]? = some current)
      (calls : after.calls = client.calls.set polled moved)
      (own : polled = index → CallStep config client action after index current moved) :
      ∃ later, after.calls[index]? = some later ∧
        CallStep config client action after index call later := by
    rw [calls, getElem?_set_found present]
    split
    · rename_i same
      cases found.symm.trans (same ▸ present)
      exact ⟨_, rfl, own same⟩
    · exact ⟨call, found, .same⟩
  cases taken.shape with
  | elapse | still => exact ⟨call, found, .same⟩
  | begin =>
    exact ⟨call, getElem?_append_found found _, .same⟩
  | returned _ _ result _ present reason calls completions =>
    exact replaced present calls (by rintro rfl; exact .returned result rfl reason completions)
  | submitted _ _ submission _ present begun number due calls _ chosen _ id =>
    exact replaced present calls
      (by rintro rfl; exact .submitted submission rfl begun number due chosen id)
  | enqueued _ _ submission _ present stage submitted =>
    exact replaced present rfl (by rintro rfl; exact .enqueued submission rfl stage submitted)
  | work worker event current next replies after worked =>
    have looked : after.calls[index]? = some (match replies.lookup index with
        | some reply => call.send reply
        | none => call) := by
      rw [worked.same, calls_answer]
      change Option.map _ client.calls[index]? = _
      rw [found]
      rfl
    cases reply : replies.lookup index with
    | none =>
      rw [reply] at looked
      exact ⟨call, looked, .same⟩
    | some answer =>
      rw [reply] at looked
      refine ⟨_, looked, .answered answer worker event current next replies rfl worked ?_⟩
      obtain ⟨front, back, rfl, _⟩ := List.lookup_eq_some_iff.mp reply
      exact List.mem_append_right _ List.mem_cons_self

theorem Step.call_new (taken : Step config client action after) {later : WorldCall}
    (found : after.calls[index]? = some later) (absent : client.calls[index]? = none) :
    later.submission = none ∧ later.reply = none ∧ later.stage = .begun ∧
      later.slot < config.poolSize := by
  have length_le {list : List WorldCall} (same : list.length = client.calls.length) :
      list[index]? = none := by
    rw [List.getElem?_eq_none_iff, same]
    exact List.getElem?_eq_none_iff.mp absent
  cases taken.shape with
  | elapse | still => cases absent.symm.trans found
  | begin =>
    change (client.calls ++ _)[index]? = _ at found
    rw [List.getElem?_append_right (List.getElem?_eq_none_iff.mp absent)] at found
    have among := List.mem_of_getElem? found
    cases List.mem_singleton.mp among
    exact ⟨rfl, rfl, rfl, Nat.mod_lt _ config.pooled.1⟩
  | returned _ _ _ _ _ _ calls | submitted _ _ _ _ _ _ _ _ calls =>
    rw [calls, length_le List.length_set] at found
    cases found
  | enqueued polled =>
    change (client.calls.set polled _)[index]? = _ at found
    rw [length_le List.length_set] at found
    cases found
  | work _ _ _ _ _ _ worked =>
    rw [worked.same, calls_answer] at found
    change Option.map _ client.calls[index]? = _ at found
    rw [absent] at found
    cases found

inductive WorkerStep (config : WorldClientConfig) (client : TcpWorldClient) (action : Action)
    (after : TcpWorldClient) (index : Nat) (worker : WorldWorker) : WorldWorker → Prop
  | same (rests : ∀ event, action ≠ .work index event) :
      WorkerStep config client action after index worker worker
  | enqueued (polled : Nat) (call : WorldCall) (submission : WorldSubmission)
      (acts : action = .poll polled) (found : client.calls[polled]? = some call)
      (stage : call.stage = .enqueueing) (submitted : call.submission = some submission)
      (own : submission.sender = index)
      (calls : after.calls = client.calls.set polled { call with stage := .waiting })
      (connections : after.connections = client.connections) :
      WorkerStep config client action after index worker { worker with
        queue := worker.queue ++
          [{ frame := submission.frame, response := polled, deadline := submission.deadline }] }
  | worked (event : WorkerEvent) (next : WorldWorker) (replies : List (Nat × WorldReply))
      (acts : action = .work index event)
      (worked : Worked config client index event worker next replies after) :
      WorkerStep config client action after index worker next

section

variable (taken : Step config client action after)
include taken

theorem Step.worker {next : WorldWorker}
    (found : after.workers[index]? = some next) :
    (∃ worker, client.workers[index]? = some worker ∧
      WorkerStep config client action after index worker next) ∨
      client.workers[index]? = none ∧ next = { queue := [], phase := .idle } := by
  have spawned (rests : ∀ event, action ≠ .work index event) (spawned : Spawned client after) :
      (∃ worker, client.workers[index]? = some worker ∧
        WorkerStep config client action after index worker next) ∨
        client.workers[index]? = none ∧ next = { queue := [], phase := .idle } := by
    rcases spawned with same | more
    · rw [same] at found
      exact .inl ⟨next, found, .same rests⟩
    · rw [more] at found
      cases old : client.workers[index]? with
      | some =>
        rw [getElem?_append_found old] at found
        cases found
        exact .inl ⟨next, rfl, .same rests⟩
      | none =>
        rw [List.getElem?_append_right (List.getElem?_eq_none_iff.mp old)] at found
        exact .inr ⟨rfl, List.mem_singleton.mp (List.mem_of_getElem? found)⟩
  cases taken.shape with
  | elapse | begin | still => exact .inl ⟨next, found, .same (by rintro event ⟨⟩)⟩
  | returned _ _ _ _ _ _ _ _ workers => exact spawned (by rintro event ⟨⟩) workers
  | submitted _ _ _ _ _ _ _ _ _ _ chosen => exact spawned (by rintro event ⟨⟩) chosen.spawned
  | enqueued polled current submission worker present stage submitted there =>
    change (client.workers.set submission.sender _)[index]? = _ at found
    rw [getElem?_set_found there] at found
    split at found
    · rename_i own
      subst own
      cases found
      exact .inl ⟨worker, there,
        .enqueued polled current submission rfl present stage submitted rfl rfl rfl⟩
    · exact .inl ⟨next, found, .same (by rintro event ⟨⟩)⟩
  | work worker event current moved replies after worked =>
    have looked := found
    rw [worked.same] at looked
    change (client.workers.set worker _)[index]? = _ at looked
    rw [getElem?_set_found worked.found] at looked
    split at looked
    · rename_i own
      subst own
      cases looked
      exact .inl ⟨current, worked.found, .worked event _ replies rfl worked⟩
    · rename_i other
      refine .inl ⟨next, looked, .same ?_⟩
      rintro _ ⟨⟩
      exact other rfl

theorem Step.pool :
    after.pool = client.pool ∨
      ∃ (call : WorldCall) (place : Nat), client.calls[place]? = some call ∧
        Repooled client after call.slot := by
  cases taken.shape with
  | elapse | begin | enqueued | still => exact .inl rfl
  | returned polled current _ _ present _ _ _ _ pool =>
    exact .inr ⟨current, polled, present, pool⟩
  | submitted polled current _ _ present _ _ _ _ _ chosen =>
    exact .inr ⟨current, polled, present, .inr (.inr ⟨_, chosen⟩)⟩
  | work _ _ _ _ _ _ worked =>
    rw [worked.same]
    exact .inl rfl

theorem Step.call_back {later : WorldCall}
    (found : after.calls[index]? = some later) :
    (∃ call, client.calls[index]? = some call ∧
      CallStep config client action after index call later) ∨
      later.submission = none ∧ later.reply = none ∧ later.stage = .begun ∧
        later.slot < config.poolSize := by
  cases old : client.calls[index]? with
  | none => exact .inr (taken.call_new found old)
  | some call =>
    obtain ⟨same, looked, step⟩ := taken.call old
    cases found.symm.trans looked
    exact .inl ⟨call, rfl, step⟩

theorem Step.workers_le :
    client.workers.length ≤ after.workers.length := by
  have spawned (spawned : Spawned client after) : client.workers.length ≤ after.workers.length := by
    rcases spawned with same | more
    · rw [same]
    · rw [more, List.length_append]
      exact Nat.le_add_right _ _
  cases taken.shape with
  | elapse | begin | still => exact le_rfl
  | returned _ _ _ _ _ _ _ _ workers => exact spawned workers
  | submitted _ _ _ _ _ _ _ _ _ _ chosen => exact spawned chosen.spawned
  | enqueued =>
    exact le_of_eq List.length_set.symm
  | work _ _ _ _ _ _ worked =>
    rw [worked.same]
    exact le_of_eq List.length_set.symm

theorem Step.worker_kept {worker : WorldWorker}
    (found : client.workers[index]? = some worker) : ∃ next, after.workers[index]? = some next := by
  have bound := (List.getElem?_eq_some_iff.mp found).1
  exact ⟨_, List.getElem?_eq_getElem (Nat.lt_of_lt_of_le bound taken.workers_le)⟩

end

inductive LogStep (client : TcpWorldClient) (action : Action) (index : Nat)
    (log : WorldConnection) : WorldConnection → Prop
  | same : LogStep client action index log log
  | written (worker : Nat) (queue : List PendingWorldRequest) (pending : PendingWorld)
      (inputOpen : Bool) (request : PendingWorldRequest) (expiry : Nat)
      (acts : action = .work worker .written)
      (found : client.workers[worker]? =
        some ⟨queue, .writing index pending inputOpen request expiry⟩) :
      LogStep client action index log { log with sent := request.frame :: log.sent }
  | read (worker : Nat) (queue : List PendingWorldRequest) (pending : PendingWorld)
      (inputOpen : Bool) (frame : Frame) (acts : action = .work worker (.read frame))
      (found : client.workers[worker]? = some ⟨queue, .selecting index pending inputOpen⟩) :
      LogStep client action index log { log with received := frame :: log.received }

theorem record_cases (client : TcpWorldClient) (worker : Nat) (current : WorldWorker)
    (event : WorkerEvent) :
    client.record worker current event = client.connections ∨
      client.record worker current event =
        client.connections ++ [{ worker, sent := [], received := [] }] ∨
      (∃ connection pending inputOpen request expiry, event = .written ∧
        current.phase = .writing connection pending inputOpen request expiry ∧
        client.record worker current event = client.connections.modify connection (fun log =>
          { log with sent := request.frame :: log.sent })) ∨
      ∃ connection pending inputOpen frame, event = .read frame ∧
        current.phase = .selecting connection pending inputOpen ∧
        client.record worker current event = client.connections.modify connection (fun log =>
          { log with received := frame :: log.received }) := by
  unfold record
  split
  · exact .inr (.inl rfl)
  · rename_i phase
    exact .inr (.inr (.inl ⟨_, _, _, _, _, rfl, phase, rfl⟩))
  · rename_i phase
    exact .inr (.inr (.inr ⟨_, _, _, _, rfl, phase, rfl⟩))
  · exact .inl rfl

section

variable (taken : Step config client action after)
include taken

theorem Step.connections_eq :
    after.connections = client.connections ∨
      ∃ worker event current next replies, action = .work worker event ∧
        Worked config client worker event current next replies after ∧
        after.connections = client.record worker current event := by
  cases taken.shape with
  | elapse | begin | enqueued | still => exact .inl rfl
  | returned _ _ _ _ _ _ _ _ _ _ connections | submitted _ _ _ _ _ _ _ _ _ _ _ connections =>
    exact .inl connections
  | work worker event current next replies _ worked =>
    refine .inr ⟨worker, event, current, next, replies, rfl, worked, ?_⟩
    rw [worked.same]
    rfl

theorem Step.connection {log : WorldConnection}
    (found : client.connections[index]? = some log) :
    ∃ later, after.connections[index]? = some later ∧ LogStep client action index log later := by
  rcases taken.connections_eq with same | ⟨worker, event, current, next, replies, acts, worked, same⟩
  · exact ⟨log, same ▸ found, .same⟩
  · rw [same]
    rcases record_cases client worker current event with
      same | more | ⟨connection, pending, inputOpen, request, expiry, rfl, phase, same⟩ |
        ⟨connection, pending, inputOpen, frame, rfl, phase, same⟩
    · exact ⟨log, same ▸ found, .same⟩
    · exact ⟨log, more ▸ getElem?_append_found found _, .same⟩
    · rw [same, getElem?_modify_found found]
      obtain ⟨queue, current⟩ := current
      cases phase
      by_cases own : connection = index
      · subst own
        rw [if_pos rfl]
        exact ⟨_, rfl, .written worker queue pending inputOpen request expiry acts worked.found⟩
      · rw [if_neg own]
        exact ⟨log, rfl, .same⟩
    · rw [same, getElem?_modify_found found]
      obtain ⟨queue, current⟩ := current
      cases phase
      by_cases own : connection = index
      · subst own
        rw [if_pos rfl]
        exact ⟨_, rfl, .read worker queue pending inputOpen frame acts worked.found⟩
      · rw [if_neg own]
        exact ⟨log, rfl, .same⟩

theorem Step.connection_new {later : WorldConnection}
    (found : after.connections[index]? = some later) (absent : client.connections[index]? = none) :
    later.sent = [] ∧ later.received = [] := by
  have outside := List.getElem?_eq_none_iff.mp absent
  have modified (place : Nat) (change : WorldConnection → WorldConnection) :
      (client.connections.modify place change)[index]? ≠ some later := by
    rw [List.getElem?_modify, absent]
    rintro ⟨⟩
  rcases taken.connections_eq with same | ⟨worker, event, current, next, replies, acts, worked, same⟩
  · cases absent.symm.trans (same ▸ found)
  · rw [same] at found
    rcases record_cases client worker current event with
      same | more | ⟨connection, pending, inputOpen, request, expiry, _, _, same⟩ |
        ⟨connection, pending, inputOpen, frame, _, _, same⟩
    · cases absent.symm.trans (same ▸ found)
    · rw [more, List.getElem?_append_right outside] at found
      cases List.mem_singleton.mp (List.mem_of_getElem? found)
      exact ⟨rfl, rfl⟩
    all_goals exact absurd (same ▸ found) (modified _ _)

theorem Step.connection_back {later : WorldConnection}
    (found : after.connections[index]? = some later) :
    (∃ log, client.connections[index]? = some log ∧ LogStep client action index log later) ∨
      client.connections[index]? = none ∧ later.sent = [] ∧ later.received = [] := by
  cases old : client.connections[index]? with
  | none => exact .inr ⟨rfl, taken.connection_new found old⟩
  | some log =>
    obtain ⟨same, looked, step⟩ := taken.connection old
    cases found.symm.trans looked
    exact .inl ⟨log, rfl, step⟩

end

end TcpWorldClient

end Elura
