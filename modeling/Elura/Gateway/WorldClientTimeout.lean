import Elura.Gateway.WorldClientRun

/-!
Timeouts of a world client on a healthy connection: unless a write is cut off by its timer, a
request fails only at its own deadline or by its own answer.
-/

namespace Elura

namespace WorkerPhase

def Closing : WorkerPhase → Prop
  | writing _ _ inputOpen _ _ | selecting _ _ inputOpen => inputOpen = false
  | finished => True
  | idle | connecting _ => False

end WorkerPhase

namespace WorldWorker

variable {config : WorldClientConfig} {now fresh : Nat} {worker after : WorldWorker}
  {event : WorkerEvent} {replies : List (Nat × WorldReply)}

theorem Works.closing (works : Works config now fresh worker event after replies)
    (closing : after.phase.Closing) : event = .close ∨ worker.phase.Closing := by
  cases works with
  | take connection pending request =>
    rcases start_cases config now connection pending request with ⟨_, same⟩ | ⟨_, same⟩
    all_goals
      rw [same] at closing
      cases closing
  | connected first =>
    rcases start_cases config now fresh [] first with ⟨_, same⟩ | ⟨_, same⟩
    all_goals
      rw [same] at closing
      cases closing
  | ended | closed => exact .inl rfl
  | written _ pending inputOpen =>
    rcases settle_cases _ _ inputOpen with same | ⟨_, closed, _⟩
    · rw [same] at closing
      exact .inr closing
    · exact .inr closed
  | read _ _ inputOpen | expire _ _ inputOpen =>
    rcases proceed_cases _ _ inputOpen with same | ⟨same | ⟨_, closed⟩, _⟩
    · rw [same] at closing
      exact .inr closing
    · rw [same] at closing
      cases closing
    · exact .inr closed
  | late | connect | connectFailed | connectExpired | writeFailed | unknown | readFailed =>
    cases closing

end WorldWorker

theorem WorldCall.holds_iff (call : WorldCall) (worker : Nat) : call.holds worker = true ↔
    TcpWorldClient.Under call ∧
      ∃ submission, call.submission = some submission ∧ submission.sender = worker := by
  have sends : call.submission.any (·.sender = worker) = true ↔
      ∃ submission, call.submission = some submission ∧ submission.sender = worker := by
    cases call.submission with
    | none | some => simp
  unfold holds TcpWorldClient.Under
  cases stage : call.stage with
  | enqueueing | waiting => simp [sends]
  | begun | done => simp

namespace TcpWorldClient

variable {config : WorldClientConfig} {client after : TcpWorldClient} {action : Action}

theorem held_iff (worker : Nat) : client.held config worker = true ↔
    (∃ slot < config.poolSize, client.pool slot = some worker) ∨
      ∃ (index : Nat) (call : WorldCall) (submission : WorldSubmission),
        client.calls[index]? = some call ∧ Under call ∧ call.submission = some submission ∧
          submission.sender = worker := by
  unfold held
  rw [Bool.or_eq_true, List.any_eq_true, List.any_eq_true]
  refine or_congr ?_ ?_
  · simp
  · constructor
    · rintro ⟨call, member, holds⟩
      obtain ⟨index, found⟩ := List.getElem?_of_mem member
      obtain ⟨under, submission, submitted, sender⟩ := (call.holds_iff worker).mp holds
      exact ⟨index, call, submission, found, under, submitted, sender⟩
    · rintro ⟨index, call, submission, found, under, submitted, sender⟩
      exact ⟨call, List.mem_of_getElem? found,
        (call.holds_iff worker).mpr ⟨under, submission, submitted, sender⟩⟩

theorem Step.held (taken : Step config client action after)
    (slots : ∀ {index : Nat} {call : WorldCall}, client.calls[index]? = some call →
      call.slot < config.poolSize)
    {index : Nat} {worker : WorldWorker} (found : client.workers[index]? = some worker)
    (held : after.held config index = true) : client.held config index = true := by
  have old := (List.getElem?_eq_some_iff.mp found).1
  rw [held_iff] at held ⊢
  rcases held with ⟨slot, bound, pooled⟩ | ⟨place, later, submission, present, under, submitted, own⟩
  · rcases taken.pool with same | ⟨call, place, called, change_⟩
    · exact .inl ⟨slot, bound, same ▸ pooled⟩
    · rcases change_ with same | cleared | ⟨sender, chosen⟩
      · exact .inl ⟨slot, bound, same ▸ pooled⟩
      · rw [cleared] at pooled
        by_cases own : slot = call.slot
        · rw [own, Function.update_self] at pooled
          cases pooled
        · rw [Function.update_of_ne own] at pooled
          exact .inl ⟨slot, bound, pooled⟩
      · rcases chosen with ⟨_, same, _⟩ | ⟨new, updated, _⟩
        · exact .inl ⟨slot, bound, same ▸ pooled⟩
        · rw [updated] at pooled
          by_cases own : slot = call.slot
          · rw [own, Function.update_self] at pooled
            cases pooled
            omega
          · rw [Function.update_of_ne own] at pooled
            exact .inl ⟨slot, bound, pooled⟩
  · rcases taken.call_back present with ⟨call, called, step⟩ | ⟨_, _, begun, _⟩
    · cases step with
      | same => exact .inr ⟨place, _, submission, called, under, submitted, own⟩
      | returned => rcases under with stage | stage <;> cases stage
      | submitted _ _ _ _ _ chosen =>
        cases submitted
        rcases chosen with ⟨pooled, _⟩ | ⟨new, _⟩
        · exact .inl ⟨call.slot, slots called, own ▸ pooled⟩
        · omega
      | enqueued _ _ stage =>
        exact .inr ⟨place, call, submission, called, .inl stage, submitted, own⟩
      | answered =>
        unfold Under at under
        rw [WorldCall.send_stage] at under
        rw [WorldCall.send_submission] at submitted
        exact .inr ⟨place, call, submission, called, under, submitted, own⟩
    · rcases under with stage | stage <;> cases begun.symm.trans stage

structure Unshared (config : WorldClientConfig) (client : TcpWorldClient) : Prop where
  slots : ∀ {index : Nat} {call : WorldCall}, client.calls[index]? = some call →
    call.slot < config.poolSize
  closing : ∀ {index : Nat} {worker : WorldWorker}, client.workers[index]? = some worker →
    worker.phase.Closing → client.held config index = false

theorem Step.unshared (taken : Step config client action after) (known : Unshared config client) :
    Unshared config after where
  slots := by
    intro index later found
    rcases taken.call_back found with ⟨call, old, step⟩ | ⟨_, _, _, bound⟩
    · have bound := known.slots old
      cases step with
      | answered => exact (WorldCall.send_slot _ _).symm ▸ bound
      | same | returned | submitted | enqueued => exact bound
    · exact bound
  closing := by
    intro index next found closing
    have kept {worker : WorldWorker} (old : client.workers[index]? = some worker)
        (free : client.held config index = false) : after.held config index = false := by
      refine Bool.eq_false_iff.mpr (fun held => ?_)
      rw [taken.held known.slots old held] at free
      cases free
    rcases taken.worker found with ⟨worker, old, step⟩ | ⟨_, rfl⟩
    · cases step with
      | same | enqueued => exact kept old (known.closing old closing)
      | worked _ _ _ _ worked =>
        rcases worked.works.closing closing with closes | before
        · exact kept old (worked.unheld closes)
        · exact kept old (known.closing old before)
    · cases closing

section Isolation

variable {error : Error} {place index : Nat} {event : WorkerEvent} {worker next : WorldWorker}
  {replies : List (Nat × WorldReply)} {call : WorldCall}

def Healthy : Action → Prop
  | .work _ (.connectFailed _) | .work _ .writeFailed | .work _ .readFailed => False
  | _ => True

def Prompt : Action → Prop
  | .work _ .writeExpired => False
  | _ => True

def Smooth (client : TcpWorldClient) (action : Action) : Prop :=
  Regular client action ∧ Healthy action ∧ Prompt action

def Rejected (client : TcpWorldClient) (submission : WorldSubmission) : Prop :=
  ∃ frame, Answered client submission frame ∧ frame.kind ≠ .response

def Own (client : TcpWorldClient) (submission : WorldSubmission) (time : Nat) : Prop :=
  submission.deadline ≤ time ∨ Rejected client submission

theorem Own.step {submission : WorldSubmission} {time later : Nat}
    (own : Own client submission time) (taken : Step config client action after)
    (forward : time ≤ later) : Own after submission later := by
  rcases own with passed | ⟨frame, answered, kind⟩
  · exact .inl (passed.trans forward)
  · exact .inr ⟨frame, answered.step taken, kind⟩

structure Blameless (client : TcpWorldClient) : Prop where
  replied : ∀ {index : Nat} {call : WorldCall} {error : Error},
    client.calls[index]? = some call → call.reply = some (.error error) →
    ∃ submission, call.submission = some submission ∧ Own client submission client.clock
  completed : ∀ {index : Nat} {error : Error} {time : Nat},
    (index, .error error, time) ∈ client.completions →
    ∃ call, client.calls[index]? = some call ∧ (call.submission = none ∨
      ∃ submission, call.submission = some submission ∧ Own client submission time)

theorem complete_error {frame : Frame} (failed : WorldWorker.complete config frame = .error error) :
    frame.kind ≠ .response := by
  intro kind
  unfold WorldWorker.complete at failed
  rw [kind] at failed
  cases failed

theorem Worked.unbroken (known : Sound config client) (smooth : Smooth client (.work place event))
    (worked : Worked config client place event worker next replies after) :
    ¬event.Fails worker.phase.pending := by
  intro fails
  obtain ⟨regular, healthy, prompt⟩ := smooth
  cases event with
  | connectFailed | writeFailed | readFailed => exact healthy
  | writeExpired => exact prompt
  | read =>
    obtain ⟨queue, connection, pending, inputOpen, rfl⟩ := worked.works.selecting
    obtain ⟨log, logged, _, perm, _⟩ := known.links.joined worked.found rfl
    exact fails (perm.mem_iff.mpr (regular _ worked.found connection rfl log logged))
  | receive | close | connected | connectExpired | written | expire => exact fails

theorem Worked.own (known : Sound config client) (smooth : Smooth client (.work place event))
    (worked : Worked config client place event worker next replies after)
    (found : client.calls[index]? = some call) (listed : (index, .error error) ∈ replies) :
    ∃ submission, call.submission = some submission ∧ Own after submission client.clock := by
  obtain ⟨submission, submitted, late | ⟨frame, answered, given⟩ | ⟨fails, _⟩⟩ :=
    worked.answered known found listed
  · exact ⟨submission, submitted, .inl late.1⟩
  · exact ⟨submission, submitted, .inr ⟨frame, answered, complete_error given.symm⟩⟩
  · exact absurd fails (worked.unbroken known smooth)

theorem Returns.own (known : Sound config client) (unshared : Unshared config client)
    (blameless : Blameless client) (found : client.calls[index]? = some call)
    (returns : Returns client call (.error error)) :
    call.submission = none ∨
      ∃ submission, call.submission = some submission ∧ Own client submission client.clock := by
  generalize result : (Except.error error : WorldReply) = returned at returns
  cases returns with
  | refused _ begun => exact .inl (known.ids.begun found begun)
  | unavailable submission _ under submitted present finished =>
    have free := unshared.closing present (finished ▸ trivial)
    have held : client.held config submission.sender = true :=
      (held_iff submission.sender).mpr
        (.inr ⟨index, call, submission, found, under, submitted, rfl⟩)
    cases held.symm.trans free
  | deadline submission _ submitted passed =>
    exact .inr ⟨submission, submitted, .inl passed⟩
  | answered _ _ given =>
    subst result
    exact .inr (blameless.replied found given)

theorem Step.blameless (taken : Step config client action after) (smooth : Smooth client action)
    (known : Sound config client) (settled : Settled client) (unshared : Unshared config client)
    (blameless : Blameless client) : Blameless after where
  replied := by
    intro index later error found replied
    rcases taken.call_back found with ⟨call, old, step⟩ | ⟨_, none_, _⟩
    · have kept (before : call.reply = some (.error error))
          (same : later.submission = call.submission) :
          ∃ submission, later.submission = some submission ∧ Own after submission after.clock := by
        obtain ⟨submission, submitted, own⟩ := blameless.replied old before
        exact ⟨submission, same.trans submitted, own.step taken taken.clock⟩
      cases step with
      | same | returned | enqueued => exact kept replied rfl
      | submitted _ _ begun =>
        cases (known.tickets.quiet old (.inl begun)).symm.trans replied
      | answered _ _ _ _ _ _ acts worked listed =>
        unfold WorldCall.send at replied
        split at replied
        · exact kept replied (WorldCall.send_submission _ _)
        · cases replied
          subst acts
          obtain ⟨submission, submitted, own⟩ := worked.own known smooth old listed
          refine ⟨submission, (WorldCall.send_submission _ _).trans submitted, ?_⟩
          rcases own with passed | rejected
          · exact .inl (passed.trans taken.clock)
          · exact .inr rejected
    · cases none_.symm.trans replied
  completed := by
    intro index error time member
    have kept (before : (index, .error error, time) ∈ client.completions) :
        ∃ call, after.calls[index]? = some call ∧ (call.submission = none ∨
          ∃ submission, call.submission = some submission ∧ Own after submission time) := by
      obtain ⟨call, found, reason⟩ := blameless.completed before
      obtain ⟨same, again, done⟩ := settled.done before
      cases found.symm.trans again
      obtain ⟨later, present, step⟩ := taken.call found
      cases step.done done
      refine ⟨call, present, reason.imp_right ?_⟩
      rintro ⟨submission, submitted, own⟩
      exact ⟨submission, submitted, own.step taken le_rfl⟩
    rcases taken.completions with same | ⟨polled, call, result, _, found, reason, calls, more⟩
    · rw [same] at member
      exact kept member
    · rw [more] at member
      rcases List.mem_cons.mp member with own | before
      · cases own
        refine ⟨{ call with stage := .done (.error error) }, ?_, ?_⟩
        · rw [calls, getElem?_set_found found]
          exact if_pos rfl
        · refine (reason.own known unshared blameless found).imp_right ?_
          rintro ⟨submission, submitted, own⟩
          exact ⟨submission, submitted, own.step taken le_rfl⟩
      · exact kept before

theorem isolated_of_run {clock : Nat} (run : RunWhen Smooth (Step config) (new clock) client) :
    Unshared config client ∧ Blameless client := by
  suffices isolated : (Sound config client ∧ Settled client) ∧ Unshared config client ∧
      Blameless client from isolated.2
  refine run.invariant ?_ ⟨⟨sound_new clock, settled_new clock⟩, ⟨nofun, nofun⟩, ⟨nofun, nofun⟩⟩
  rintro before action after smooth taken ⟨⟨sound, settled⟩, unshared, blameless⟩
  exact ⟨⟨taken.sound smooth.1 sound, taken.settled sound settled⟩, taken.unshared unshared,
    taken.blameless smooth sound settled unshared blameless⟩

instance decidableHealthy : (action : Action) → Decidable (Healthy action)
  | .work _ (.connectFailed _) | .work _ .writeFailed | .work _ .readFailed => isFalse id
  | .elapse _ | .begin _ | .poll _ | .work _ .receive | .work _ .close | .work _ .connected
  | .work _ .connectExpired | .work _ .written | .work _ .writeExpired | .work _ (.read _)
  | .work _ .expire => isTrue trivial

instance decidablePrompt : (action : Action) → Decidable (Prompt action)
  | .work _ .writeExpired => isFalse id
  | .elapse _ | .begin _ | .poll _ | .work _ .receive | .work _ .close | .work _ .connected
  | .work _ (.connectFailed _) | .work _ .connectExpired | .work _ .written
  | .work _ .writeFailed | .work _ (.read _) | .work _ .readFailed | .work _ .expire =>
    isTrue trivial

instance decidableSmooth (client : TcpWorldClient) (action : Action) :
    Decidable (Smooth client action) :=
  inferInstanceAs (Decidable (_ ∧ _ ∧ _))

def singleConnection : WorldClientConfig where
  poolSize := 1
  maxInFlight := worldConnectionInFlight
  connectTimeout := .ofSecs 2
  latest := 10 ^ 20
  parse := fun _ => none
  pooled := by decide
  limited := worldConnectionInFlight_limited

def twoCommands : List Action :=
  [.begin { route := 100, payload := [1], timeout := .ofSecs 1 },
    .begin { route := 100, payload := [2], timeout := 10 ^ 7 }, .poll 0, .poll 0, .poll 1, .poll 1,
    .work 0 .receive, .work 0 .connected, .work 0 .written, .work 0 .receive]

def shortTimesOut : List Action :=
  twoCommands ++ [.work 0 .written, .elapse (10 ^ 7), .work 0 .expire, .poll 1,
    .work 0 (.read (responseTo 1 [7])), .poll 0]

theorem shortTimesOut_complete : Complete singleConnection shortTimesOut Smooth where
  possible := by
    unfold Possible
    decide +kernel
  clock := by decide +kernel
  ended := by decide +kernel
  polled := by decide +kernel

def shortCutOff : List Action :=
  twoCommands ++ [.elapse (10 ^ 7), .work 0 .writeExpired, .poll 0]

end Isolation

end TcpWorldClient

end Elura
