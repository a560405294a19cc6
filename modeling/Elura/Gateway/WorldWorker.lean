import Elura.Gateway.WorldClient

/-!
What one step of a world connection's worker does with the requests it owns: each of them is
answered or kept, and none is answered twice.
-/

namespace Elura

open List PendingWorld

structure Ticket where
  id : UInt64
  call : Nat
  deadline : Nat
  deriving DecidableEq, Repr

def PendingWorldRequest.ticket (request : PendingWorldRequest) : Ticket where
  id := request.frame.requestId
  call := request.response
  deadline := request.deadline

namespace PendingWorld

variable {pending : PendingWorld} {id : UInt64} {now : Nat}

def ticket (entry : UInt64 × PendingWorldResponse) : Option Ticket :=
  entry.2.response.map (fun call => { id := entry.1, call, deadline := entry.2.deadline })

def tickets (pending : PendingWorld) : List Ticket :=
  pending.filterMap ticket

def ids (pending : PendingWorld) : List UInt64 :=
  pending.map Prod.fst

theorem tickets_cons (entry : UInt64 × PendingWorldResponse) (rest : PendingWorld) :
    tickets (entry :: rest) = (ticket entry).toList ++ tickets rest := by
  unfold tickets
  cases response : ticket entry with
  | none => rw [filterMap_cons_none response, Option.toList_none, nil_append]
  | some =>
    rw [filterMap_cons_some response, Option.toList_some, singleton_append]

theorem tickets_append (front back : PendingWorld) :
    tickets (front ++ back) = tickets front ++ tickets back :=
  List.filterMap_append

theorem tickets_eq_nil (inactive : pending.hasActiveWorldRequests = false) :
    pending.tickets = [] := by
  refine filterMap_eq_nil_iff.mpr ?_
  intro entry member
  have silent := any_eq_false.mp inactive entry member
  simp only [Bool.not_eq_true, Option.isSome_eq_false_iff, Option.isNone_iff_eq_none] at silent
  simp [ticket, silent]

theorem calls_tickets : pending.tickets.map Ticket.call = pending.filterMap (·.2.response) := by
  rw [tickets, map_filterMap]
  congr 1
  funext entry
  cases response : entry.2.response with
  | none | some => simp [ticket, response]

theorem failWorldRequests_calls :
    pending.failWorldRequests.map Prod.fst = pending.tickets.map Ticket.call := by
  rw [calls_tickets, failWorldRequests, map_map]
  exact map_id _

theorem remove_of_absent (absent : id ∉ pending.ids) : pending.remove id = pending := by
  refine filter_eq_self.mpr ?_
  intro entry member
  refine decide_eq_true ?_
  rintro rfl
  exact absent (mem_map_of_mem member)

theorem ids_remove : (pending.remove id).ids = pending.ids.filter (· ≠ id) := by
  unfold remove ids
  rw [filter_map]
  rfl

theorem insert_of_absent (absent : id ∉ pending.ids) (response : PendingWorldResponse) :
    pending.insert id response = (id, response) :: pending :=
  congrArg _ (remove_of_absent absent)

theorem tickets_remove (distinct : pending.ids.Nodup) {completion : PendingWorldResponse}
    (found : pending.find id = some completion) :
    ((ticket (id, completion)).toList ++ (pending.remove id).tickets).Perm pending.tickets := by
  obtain ⟨⟨key, entry⟩, first, rfl⟩ := Option.map_eq_some_iff.mp found
  obtain ⟨same, before, rest, split, _⟩ := find?_eq_some_iff_append.mp first
  have own : key = id := of_decide_eq_true same
  subst own
  rw [ids, split, map_append, map_cons, nodup_append, nodup_cons] at distinct
  obtain ⟨_, ⟨later, _⟩, apart⟩ := distinct
  have kept : pending.remove key = before ++ rest := by
    have front : key ∉ ids before := fun member => apart key member key mem_cons_self rfl
    have left := remove_of_absent front
    have right := remove_of_absent (show key ∉ ids rest from later)
    unfold remove at left right ⊢
    rw [split, filter_append, filter_cons_of_neg (by simp), left, right]
  rw [kept, split, tickets_append, tickets_append, tickets_cons]
  exact perm_append_comm_assoc _ _ _

theorem find_eq_none (none_ : pending.find id = none) : id ∉ pending.ids := by
  intro member
  obtain ⟨entry, among, same⟩ := mem_map.mp member
  have missing := find?_eq_none.mp (Option.map_eq_none_iff.mp none_) entry among
  exact missing (decide_eq_true same)

theorem mem_of_find {completion : PendingWorldResponse}
    (found : pending.find id = some completion) : (id, completion) ∈ pending := by
  obtain ⟨⟨key, entry⟩, first, rfl⟩ := Option.map_eq_some_iff.mp found
  have matches_ := find?_some first
  have own : key = id := of_decide_eq_true matches_
  subst own
  exact mem_of_find?_eq_some first

theorem ids_expire : (pending.expire now).ids = pending.ids := by
  unfold ids expire
  rw [map_map]
  rfl

theorem expired_calls : (pending.expired now).map Prod.fst =
    (tickets (pending.filter (·.2.deadline ≤ now))).map Ticket.call := by
  rw [calls_tickets, expired, map_map]
  exact map_id _

theorem tickets_expire : ((tickets (pending.filter (·.2.deadline ≤ now))) ++
    (pending.expire now).tickets).Perm pending.tickets := by
  induction pending with
  | nil => exact .refl _
  | cons entry rest ih =>
    by_cases passed : entry.2.deadline ≤ now
    · have dropped : expire (entry :: rest) now =
          (entry.1, { entry.2 with response := none }) :: expire rest now := by
        simp [expire, passed]
      have taken : filter (·.2.deadline ≤ now) (entry :: rest) =
          entry :: filter (·.2.deadline ≤ now) rest := by simp [passed]
      rw [dropped, taken, tickets_cons, tickets_cons, tickets_cons, append_assoc]
      exact ih.append_left _
    · have kept : expire (entry :: rest) now = entry :: expire rest now := by
        simp [expire, passed]
      have left : filter (·.2.deadline ≤ now) (entry :: rest) =
          filter (·.2.deadline ≤ now) rest := by simp [passed]
      rw [kept, left, tickets_cons, tickets_cons]
      exact (perm_append_comm_assoc _ _ _).trans (ih.append_left _)

end PendingWorld

namespace WorkerPhase

def connection : WorkerPhase → Option Nat
  | writing connection .. | selecting connection .. => some connection
  | idle | connecting _ | finished => none

def pending : WorkerPhase → PendingWorld
  | writing _ pending .. | selecting _ pending _ => pending
  | idle | connecting _ | finished => []

def unsent : WorkerPhase → List PendingWorldRequest
  | connecting request | writing _ _ _ request _ => [request]
  | idle | selecting .. | finished => []

end WorkerPhase

/-- The event is a failure of the connection; a response that nobody has asked for
is one too. -/
def WorkerEvent.Fails (pending : PendingWorld) : WorkerEvent → Prop
  | .connectFailed _ | .writeFailed | .writeExpired | .readFailed => True
  | .read frame => frame.requestId ∉ pending.ids
  | .receive | .close | .connected | .connectExpired | .written | .expire => False

namespace WorldWorker

variable {config : WorldClientConfig} {now fresh : Nat} {worker after : WorldWorker}
  {event : WorkerEvent} {replies : List (Nat × WorldReply)}
variable (queue : List PendingWorldRequest) (connection : Nat) (pending : PendingWorld)
  (inputOpen : Bool)

def unsent (worker : WorldWorker) : List PendingWorldRequest :=
  worker.queue ++ worker.phase.unsent

def owned (worker : WorldWorker) : List Ticket :=
  worker.unsent.map PendingWorldRequest.ticket ++ worker.phase.pending.tickets

inductive Works (config : WorldClientConfig) (now fresh : Nat) :
    WorldWorker → WorkerEvent → WorldWorker → List (Nat × WorldReply) → Prop
  | late (first : PendingWorldRequest) (queue : List PendingWorldRequest)
      (passed : first.deadline ≤ now) :
      Works config now fresh ⟨first :: queue, .idle⟩ .receive ⟨queue, .idle⟩
        [(first.response, .error .timeout)]
  | connect (first : PendingWorldRequest) (queue : List PendingWorldRequest) :
      Works config now fresh ⟨first :: queue, .idle⟩ .receive ⟨queue, .connecting first⟩ []
  | take (connection : Nat) (pending : PendingWorld) (request : PendingWorldRequest)
      (queue : List PendingWorldRequest) (room : pending.length < config.maxInFlight) :
      Works config now fresh ⟨request :: queue, .selecting connection pending true⟩ .receive
        ⟨queue, (start config now connection pending true request).1⟩
        (start config now connection pending true request).2
  | ended : Works config now fresh ⟨[], .idle⟩ .close ⟨[], .finished⟩ []
  | closed (connection : Nat) (pending : PendingWorld) :
      Works config now fresh ⟨[], .selecting connection pending true⟩ .close
        ⟨[], settle connection pending false⟩ []
  | connected (first : PendingWorldRequest) (queue : List PendingWorldRequest) :
      Works config now fresh ⟨queue, .connecting first⟩ .connected
        ⟨queue, (start config now fresh [] true first).1⟩ (start config now fresh [] true first).2
  | connectFailed (first : PendingWorldRequest) (queue : List PendingWorldRequest)
      (error : Error) :
      Works config now fresh ⟨queue, .connecting first⟩ (.connectFailed error) ⟨queue, .idle⟩
        [(first.response, .error error)]
  | connectExpired (first : PendingWorldRequest) (queue : List PendingWorldRequest)
      (passed : first.deadline ≤ now) :
      Works config now fresh ⟨queue, .connecting first⟩ .connectExpired ⟨queue, .idle⟩
        [(first.response, .error .timeout)]
  | written (connection : Nat) (pending : PendingWorld) (inputOpen : Bool)
      (request : PendingWorldRequest) (expiry : Nat) (queue : List PendingWorldRequest) :
      Works config now fresh ⟨queue, .writing connection pending inputOpen request expiry⟩ .written
        ⟨queue, settle connection (pending.insert request.frame.requestId
          { response := some request.response, deadline := request.deadline }) inputOpen⟩ []
  | writeFailed (connection : Nat) (pending : PendingWorld) (inputOpen : Bool)
      (request : PendingWorldRequest) (expiry : Nat) (queue : List PendingWorldRequest)
      (event : WorkerEvent) (cause : event = .writeFailed ∨ event = .writeExpired ∧ expiry ≤ now) :
      Works config now fresh ⟨queue, .writing connection pending inputOpen request expiry⟩ event
        ⟨queue, .idle⟩ ((request.response, .error .unavailable) :: pending.failWorldRequests)
  | unknown (connection : Nat) (pending : PendingWorld) (inputOpen : Bool) (frame : Frame)
      (queue : List PendingWorldRequest) (missing : pending.find frame.requestId = none) :
      Works config now fresh ⟨queue, .selecting connection pending inputOpen⟩ (.read frame)
        ⟨queue, .idle⟩ pending.failWorldRequests
  | read (connection : Nat) (pending : PendingWorld) (inputOpen : Bool) (frame : Frame)
      (queue : List PendingWorldRequest) (completion : PendingWorldResponse)
      (found : pending.find frame.requestId = some completion) :
      Works config now fresh ⟨queue, .selecting connection pending inputOpen⟩ (.read frame)
        ⟨queue, proceed connection (pending.remove frame.requestId) inputOpen⟩
        (completion.response.toList.map (·, complete config frame))
  | readFailed (connection : Nat) (pending : PendingWorld) (inputOpen : Bool)
      (queue : List PendingWorldRequest) :
      Works config now fresh ⟨queue, .selecting connection pending inputOpen⟩ .readFailed
        ⟨queue, .idle⟩ pending.failWorldRequests
  | expire (connection : Nat) (pending : PendingWorld) (inputOpen : Bool)
      (queue : List PendingWorldRequest) :
      Works config now fresh ⟨queue, .selecting connection pending inputOpen⟩ .expire
        ⟨queue, proceed connection (pending.expire now) inputOpen⟩ (pending.expired now)

theorem step_works (taken : worker.step config now fresh event = some (after, replies)) :
    Works config now fresh worker event after replies := by
  obtain ⟨queue, phase⟩ := worker
  cases event with
  | receive =>
    simp only [step] at taken
    split at taken
    · split at taken
      · rename_i passed
        cases taken
        exact .late _ _ passed
      · cases taken
        exact .connect _ _
    · split_ifs at taken with room
      cases taken
      exact .take _ _ _ _ room
    · cases taken
  | close =>
    simp only [step] at taken
    split at taken
    · cases taken
      exact .ended
    · split_ifs at taken
      cases taken
      exact .closed _ _
    · cases taken
  | connected =>
    cases phase with
    | connecting first =>
      cases taken
      exact .connected first queue
    | _ => cases taken
  | connectFailed error =>
    cases phase with
    | connecting first =>
      cases taken
      exact .connectFailed first queue error
    | _ => cases taken
  | connectExpired =>
    cases phase with
    | connecting first =>
      simp only [step] at taken
      split_ifs at taken with passed
      cases taken
      exact .connectExpired first queue passed
    | _ => cases taken
  | written =>
    cases phase with
    | writing connection pending inputOpen request expiry =>
      cases taken
      exact .written connection pending inputOpen request expiry queue
    | _ => cases taken
  | writeFailed =>
    cases phase with
    | writing connection pending inputOpen request expiry =>
      cases taken
      exact .writeFailed connection pending inputOpen request expiry queue _ (.inl rfl)
    | _ => cases taken
  | writeExpired =>
    cases phase with
    | writing connection pending inputOpen request expiry =>
      simp only [step] at taken
      split_ifs at taken with passed
      cases taken
      exact .writeFailed connection pending inputOpen request expiry queue _
        (.inr ⟨rfl, passed⟩)
    | _ => cases taken
  | read frame =>
    cases phase with
    | selecting connection pending inputOpen =>
      simp only [step] at taken
      split at taken
      · rename_i missing
        cases taken
        exact .unknown connection pending inputOpen frame queue missing
      · rename_i completion found
        cases taken
        exact .read connection pending inputOpen frame queue completion found
    | _ => cases taken
  | readFailed =>
    cases phase with
    | selecting connection pending inputOpen =>
      cases taken
      exact .readFailed connection pending inputOpen queue
    | _ => cases taken
  | expire =>
    cases phase with
    | selecting connection pending inputOpen =>
      simp only [step] at taken
      split_ifs at taken
      cases taken
      exact .expire connection pending inputOpen queue
    | _ => cases taken

/-- What is left of a connection whose loop goes on. -/
theorem settle_cases :
    settle connection pending inputOpen = .selecting connection pending inputOpen ∨
      settle connection pending inputOpen = .finished ∧ inputOpen = false ∧
        pending.tickets = [] := by
  unfold settle
  split
  · exact .inl rfl
  · rename_i idle
    simp only [Bool.or_eq_true, not_or, Bool.not_eq_true] at idle
    exact .inr ⟨rfl, idle.1, tickets_eq_nil idle.2⟩

theorem proceed_cases :
    proceed connection pending inputOpen = .selecting connection pending inputOpen ∨
      (proceed connection pending inputOpen = .idle ∨
        proceed connection pending inputOpen = .finished ∧ inputOpen = false) ∧
        pending.tickets = [] := by
  unfold proceed
  split
  · rename_i only
    exact .inr ⟨.inl rfl, tickets_eq_nil (Bool.not_eq_true _ ▸ only.2)⟩
  · rcases settle_cases connection pending inputOpen with selecting | ⟨finished, closed, none_⟩
    · exact .inl selecting
    · exact .inr ⟨.inr ⟨finished, closed⟩, none_⟩

theorem start_cases (config : WorldClientConfig) (now connection : Nat) (pending : PendingWorld)
    (request : PendingWorldRequest) :
    request.deadline ≤ now ∧ start config now connection pending true request =
        (.selecting connection pending true, [(request.response, .error .timeout)]) ∨
      ∃ expiry, start config now connection pending true request =
        (.writing connection pending true request expiry, []) := by
  unfold start
  split
  · rename_i passed
    exact .inl ⟨passed, rfl⟩
  · exact .inr ⟨_, rfl⟩

theorem owned_selecting :
    owned ⟨queue, .selecting connection pending inputOpen⟩ =
      queue.map PendingWorldRequest.ticket ++ pending.tickets := by
  simp [owned, unsent, WorkerPhase.unsent, WorkerPhase.pending]

theorem owned_writing (request : PendingWorldRequest) (expiry : Nat) :
    owned ⟨queue, .writing connection pending inputOpen request expiry⟩ =
      queue.map PendingWorldRequest.ticket ++ request.ticket :: pending.tickets := by
  simp [owned, unsent, WorkerPhase.unsent, WorkerPhase.pending]

theorem owned_connecting (first : PendingWorldRequest) :
    owned ⟨queue, .connecting first⟩ = queue.map PendingWorldRequest.ticket ++ [first.ticket] := by
  simp [owned, unsent, WorkerPhase.unsent, WorkerPhase.pending, tickets]

theorem owned_idle :
    owned ⟨queue, .idle⟩ = queue.map PendingWorldRequest.ticket := by
  simp [owned, unsent, WorkerPhase.unsent, WorkerPhase.pending, tickets]

theorem owned_finished :
    owned ⟨queue, .finished⟩ = queue.map PendingWorldRequest.ticket := by
  simp [owned, unsent, WorkerPhase.unsent, WorkerPhase.pending, tickets]

theorem owned_settle :
    owned ⟨queue, settle connection pending inputOpen⟩ =
      queue.map PendingWorldRequest.ticket ++ pending.tickets := by
  rcases settle_cases connection pending inputOpen with selecting | ⟨finished, _, none_⟩
  · rw [selecting, owned_selecting]
  · rw [finished, none_, owned_finished, append_nil]

theorem owned_proceed :
    owned ⟨queue, proceed connection pending inputOpen⟩ =
      queue.map PendingWorldRequest.ticket ++ pending.tickets := by
  rcases proceed_cases connection pending inputOpen with
    selecting | ⟨idle | ⟨finished, _⟩, none_⟩
  · rw [selecting, owned_selecting]
  · rw [idle, none_, owned_idle, append_nil]
  · rw [finished, none_, owned_finished, append_nil]

/-- Every request is answered or kept. -/
theorem Works.owned (works : Works config now fresh worker event after replies)
    (distinct : worker.phase.pending.ids.Nodup)
    (unsent : ∀ request ∈ worker.phase.unsent, request.frame.requestId ∉ worker.phase.pending.ids) :
    ∃ replied : List Ticket, replied.map Ticket.call = replies.map Prod.fst ∧
      (replied ++ after.owned).Perm worker.owned := by
  cases works with
  | late first =>
    exact ⟨[first.ticket], rfl, by rw [owned_idle, owned_idle]; exact .refl _⟩
  | connect =>
    refine ⟨[], rfl, ?_⟩
    rw [owned_idle, owned_connecting]
    exact perm_append_singleton _ _
  | take connection pending request =>
    rcases start_cases config now connection pending request with
      ⟨passed, started⟩ | ⟨expiry, started⟩
    · refine ⟨[request.ticket], by rw [started]; rfl, ?_⟩
      rw [started, owned_selecting, owned_selecting]
      exact .refl _
    · refine ⟨[], by rw [started]; rfl, ?_⟩
      rw [started, owned_writing, owned_selecting]
      exact perm_middle
  | ended => exact ⟨[], rfl, .refl _⟩
  | closed =>
    refine ⟨[], rfl, ?_⟩
    rw [owned_settle]
    exact .refl _
  | connected first =>
    rcases start_cases config now fresh [] first with ⟨passed, started⟩ | ⟨expiry, started⟩
    · refine ⟨[first.ticket], by rw [started]; rfl, ?_⟩
      have none_ : tickets [] = [] := rfl
      rw [started, owned_selecting, owned_connecting, none_, append_nil]
      exact perm_append_comm
    · refine ⟨[], by rw [started]; rfl, ?_⟩
      rw [started, owned_writing, owned_connecting]
      exact .refl _
  | connectFailed first | connectExpired first =>
    refine ⟨[first.ticket], rfl, ?_⟩
    rw [owned_idle, owned_connecting]
    exact perm_append_comm
  | written _ pending _ request =>
    have absent : request.frame.requestId ∉ pending.ids := unsent request mem_cons_self
    refine ⟨[], rfl, ?_⟩
    rw [owned_settle, owned_writing, insert_of_absent absent]
    exact .refl _
  | writeFailed _ pending _ request =>
    refine ⟨request.ticket :: pending.tickets, ?_, ?_⟩
    · rw [map_cons, map_cons, failWorldRequests_calls]
      rfl
    · rw [owned_idle, owned_writing]
      exact perm_append_comm
  | unknown _ pending | readFailed _ pending =>
    refine ⟨pending.tickets, failWorldRequests_calls.symm, ?_⟩
    rw [owned_idle, owned_selecting]
    exact perm_append_comm
  | read _ _ _ frame _ completion found =>
    refine ⟨(ticket (frame.requestId, completion)).toList, ?_, ?_⟩
    · cases response : completion.response with
      | none | some => simp [ticket, response]
    · rw [owned_proceed, owned_selecting]
      exact (perm_append_comm_assoc _ _ _).trans
        ((tickets_remove distinct found).append_left _)
  | expire _ pending =>
    refine ⟨tickets (pending.filter (·.2.deadline ≤ now)),
      expired_calls.symm, ?_⟩
    rw [owned_proceed, owned_selecting]
    exact (perm_append_comm_assoc _ _ _).trans
      (tickets_expire.append_left _)

theorem settle_unsent :
    (settle connection pending inputOpen).unsent = [] := by
  rcases settle_cases connection pending inputOpen with same | ⟨same, _⟩
  · rw [same]
    rfl
  · rw [same]
    rfl

theorem proceed_unsent :
    (proceed connection pending inputOpen).unsent = [] := by
  unfold proceed
  split
  · rfl
  · exact settle_unsent ..

theorem Works.unsent (works : Works config now fresh worker event after replies)
    {request : PendingWorldRequest} (member : request ∈ after.unsent) :
    request ∈ worker.unsent := by
  have queued {queue : List PendingWorldRequest} {phase : WorkerPhase} (sent : phase.unsent = [])
      (among : request ∈ WorldWorker.unsent ⟨queue, phase⟩) : request ∈ queue := by
    rw [WorldWorker.unsent, sent, append_nil] at among
    exact among
  have moved {first : PendingWorldRequest} {queue : List PendingWorldRequest}
      (among : request ∈ queue ++ [first]) : request ∈ first :: queue :=
    (perm_append_singleton first queue).subset among
  cases works with
  | late => exact mem_append_left _ (.tail _ (queued rfl member))
  | connect => exact mem_append_left _ (moved member)
  | take connection pending first =>
    rcases start_cases config now connection pending first with
      ⟨passed, started⟩ | ⟨expiry, started⟩
    · rw [started] at member
      exact mem_append_left _ (.tail _ (queued rfl member))
    · rw [started] at member
      exact mem_append_left _ (moved member)
  | ended => exact member
  | closed | written => exact mem_append_left _ (queued (settle_unsent ..) member)
  | connected first =>
    rcases start_cases config now fresh [] first with ⟨passed, started⟩ | ⟨expiry, started⟩
    · rw [started] at member
      exact mem_append_left _ (queued rfl member)
    · rw [started] at member
      exact member
  | read | expire => exact mem_append_left _ (queued (proceed_unsent ..) member)
  | connectFailed | connectExpired | writeFailed | unknown | readFailed =>
    exact mem_append_left _ (queued rfl member)

theorem Works.selecting {frame : Frame}
    (works : Works config now fresh worker (.read frame) after replies) :
    ∃ queue connection pending inputOpen,
      worker = ⟨queue, .selecting connection pending inputOpen⟩ := by
  cases works with
  | unknown | read => exact ⟨_, _, _, _, rfl⟩
  | writeFailed _ _ _ _ _ _ _ cause => rcases cause with cause | ⟨cause, _⟩ <;> cases cause

inductive Joins (config : WorldClientConfig) (fresh connection : Nat) (worker : WorldWorker)
    (event : WorkerEvent) (after : WorldWorker) : Prop
  | stays (before : worker.phase.connection = some connection)
      (ids : after.phase.pending.ids = worker.phase.pending.ids)
      (room : after.phase.unsent = [] ∨ after.phase.unsent.length = 1 ∧
        worker.phase.pending.length < config.maxInFlight)
      (quiet : event = .receive ∨ event = .close ∨ event = .expire)
  | opens (new : connection = fresh) (connects : event = .connected)
      (empty : after.phase.pending = []) (single : after.phase.unsent.length ≤ 1)
  | writes (queue : List PendingWorldRequest) (pending : PendingWorld) (inputOpen : Bool)
      (request : PendingWorldRequest) (expiry : Nat)
      (before : worker = ⟨queue, .writing connection pending inputOpen request expiry⟩)
      (written : event = .written)
      (pended : after.phase.pending = pending.insert request.frame.requestId
        { response := some request.response, deadline := request.deadline })
      (sent : after.phase.unsent = [])
  | reads (queue : List PendingWorldRequest) (pending : PendingWorld) (inputOpen : Bool)
      (frame : Frame) (before : worker = ⟨queue, .selecting connection pending inputOpen⟩)
      (read : event = .read frame) (pended : after.phase.pending = pending.remove frame.requestId)
      (sent : after.phase.unsent = [])

theorem Works.joins (works : Works config now fresh worker event after replies) {connection : Nat}
    (joined : after.phase.connection = some connection) :
    Joins config fresh connection worker event after := by
  cases works with
  | take own pending request _ room =>
    rcases start_cases config now own pending request with
      ⟨passed, started⟩ | ⟨expiry, started⟩
    · rw [started] at joined ⊢
      exact .stays joined rfl (.inl rfl) (.inl rfl)
    · rw [started] at joined ⊢
      exact .stays joined rfl (.inr ⟨rfl, room⟩) (.inl rfl)
  | closed own pending =>
    rcases settle_cases own pending false with same | ⟨same, _⟩
    · rw [same] at joined ⊢
      exact .stays joined rfl (.inl rfl) (.inr (.inl rfl))
    · rw [same] at joined
      cases joined
  | connected first =>
    rcases start_cases config now fresh [] first with ⟨passed, started⟩ | ⟨expiry, started⟩
    · rw [started] at joined ⊢
      exact .opens (Option.some.inj joined).symm rfl rfl (Nat.zero_le 1)
    · rw [started] at joined ⊢
      exact .opens (Option.some.inj joined).symm rfl rfl (le_refl 1)
  | written own pending inputOpen request expiry queue =>
    rcases settle_cases own (pending.insert request.frame.requestId
      { response := some request.response, deadline := request.deadline }) inputOpen with
      same | ⟨same, _⟩
    · rw [same] at joined ⊢
      cases joined
      exact .writes queue pending inputOpen request expiry rfl rfl rfl rfl
    · rw [same] at joined
      cases joined
  | read own pending inputOpen frame queue =>
    rcases proceed_cases own (pending.remove frame.requestId) inputOpen with
      same | ⟨same | ⟨same, _⟩, _⟩
    · rw [same] at joined ⊢
      cases joined
      exact .reads queue pending inputOpen frame rfl rfl rfl rfl
    all_goals
      rw [same] at joined
      cases joined
  | expire own pending inputOpen =>
    rcases proceed_cases own (pending.expire now) inputOpen with
      same | ⟨same | ⟨same, _⟩, _⟩
    · rw [same] at joined ⊢
      exact .stays joined ids_expire (.inl rfl) (.inr (.inr rfl))
    all_goals
      rw [same] at joined
      cases joined
  | late | connect | ended | connectFailed | connectExpired | writeFailed | unknown | readFailed =>
    cases joined

inductive Reason (config : WorldClientConfig) (now : Nat) (worker : WorldWorker)
    (event : WorkerEvent) (ticket : Ticket) : WorldReply → Prop
  | deadline (passed : ticket.deadline ≤ now) :
      Reason config now worker event ticket (.error .timeout)
  | response (connection : Nat) (frame : Frame) (read : event = .read frame)
      (own : frame.requestId = ticket.id) (listed : ticket.id ∈ worker.phase.pending.ids)
      (there : worker.phase.connection = some connection) :
      Reason config now worker event ticket (complete config frame)
  | broken (error : Error) (fails : event.Fails worker.phase.pending) :
      Reason config now worker event ticket (.error error)

theorem mem_owned_pending {ticket : Ticket} (member : ticket ∈ worker.phase.pending.tickets) :
    ticket ∈ worker.owned :=
  List.mem_append_right _ member

theorem mem_owned_unsent {request : PendingWorldRequest} (member : request ∈ worker.unsent) :
    request.ticket ∈ worker.owned :=
  List.mem_append_left _ (List.mem_map_of_mem member)

theorem Works.reason (works : Works config now fresh worker event after replies) {call : Nat}
    {reply : WorldReply} (member : (call, reply) ∈ replies) :
    ∃ ticket ∈ worker.owned, ticket.call = call ∧
      Reason config now worker event ticket reply := by
  have first {request : PendingWorldRequest} {error : Error}
      (only : (call, reply) ∈ [(request.response, (.error error : WorldReply))])
      (mine : request ∈ worker.unsent)
      (reason : Reason config now worker event request.ticket (.error error)) :
      ∃ ticket ∈ worker.owned, ticket.call = call ∧
        Reason config now worker event ticket reply := by
    cases mem_singleton.mp only
    exact ⟨request.ticket, mem_owned_unsent mine, rfl, reason⟩
  have failed (among : (call, reply) ∈ worker.phase.pending.failWorldRequests)
      (fails : event.Fails worker.phase.pending) :
      ∃ ticket ∈ worker.owned, ticket.call = call ∧
        Reason config now worker event ticket reply := by
    obtain ⟨answered, pended, same⟩ := mem_map.mp among
    cases same
    rw [← calls_tickets] at pended
    obtain ⟨ticket, listed, rfl⟩ := mem_map.mp pended
    exact ⟨ticket, mem_owned_pending listed, rfl, .broken _ fails⟩
  cases works with
  | late _ _ passed =>
    exact first member (mem_append_left _ mem_cons_self) (.deadline passed)
  | take connection pending request =>
    rcases start_cases config now connection pending request with
      ⟨passed, started⟩ | ⟨expiry, started⟩
    · rw [started] at member
      exact first member (mem_append_left _ mem_cons_self) (.deadline passed)
    · rw [started] at member
      exact absurd member not_mem_nil
  | connected request =>
    rcases start_cases config now fresh [] request with ⟨passed, started⟩ | ⟨expiry, started⟩
    · rw [started] at member
      exact first member (mem_append_right _ mem_cons_self) (.deadline passed)
    · rw [started] at member
      exact absurd member not_mem_nil
  | connectFailed =>
    exact first member (mem_append_right _ mem_cons_self) (.broken _ trivial)
  | connectExpired _ _ passed =>
    exact first member (mem_append_right _ mem_cons_self) (.deadline passed)
  | writeFailed _ pending _ _ _ _ event cause =>
    have fails : event.Fails pending := by
      rcases cause with rfl | ⟨rfl, _⟩
      · trivial
      · trivial
    rcases mem_cons.mp member with own | others
    · exact first (mem_singleton.mpr own) (mem_append_right _ mem_cons_self)
        (.broken _ fails)
    · exact failed others fails
  | unknown _ _ _ _ _ missing =>
    exact failed member (find_eq_none missing)
  | read connection _ _ frame _ completion found =>
    obtain ⟨answered, among, same⟩ := mem_map.mp member
    cases same
    have there := mem_of_find found
    refine ⟨⟨frame.requestId, call, completion.deadline⟩, mem_owned_pending ?_, rfl,
      .response connection frame rfl rfl (mem_map_of_mem there) rfl⟩
    refine mem_filterMap.mpr ⟨_, there, ?_⟩
    simp [ticket, Option.mem_toList.mp among]
  | readFailed => exact failed member trivial
  | expire =>
    obtain ⟨answered, among, same⟩ := mem_map.mp member
    cases same
    obtain ⟨entry, listed, response⟩ := mem_filterMap.mp among
    obtain ⟨present, passed⟩ := mem_filter.mp listed
    refine ⟨⟨entry.1, call, entry.2.deadline⟩, mem_owned_pending ?_, rfl,
      .deadline (of_decide_eq_true passed)⟩
    refine mem_filterMap.mpr ⟨entry, present, ?_⟩
    simp [ticket, response]
  | connect | ended | closed | written => exact absurd member not_mem_nil

end WorldWorker

end Elura
