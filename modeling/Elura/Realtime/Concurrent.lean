import Elura.Realtime.Phases

/-!
Submissions that overlap an advance: any number of them may take their steps between two of its
phases. The room is a `Ledger` of command lists whose settled entries are those of the finalized
ticks.
-/

namespace Elura.Realtime

inductive Phase (Sn : Type)
  | idle
  | drained (late : Option Nat)
  | simulated (executed : Room.Executed Sn)
  | stored (number : Nat)

/-- `refuse` is a `try_submit_at` that finds the channel full, `cancel` a
`submit_at` whose future is dropped while it waits. -/
inductive Action (C : Type)
  | validate (target : Nat) (command : Command C)
  | send (index : Nat)
  | refuse (index : Nat)
  | cancel (index : Nat)
  | drain
  | simulate
  | storeCurrent
  | storeFinalized
  deriving DecidableEq

structure Shared (σ C Sn π : Type) where
  room : Room σ C Sn π
  phase : Phase Sn
  submissions : List (Submitted C)
  log : Nat → List (Command C)
  failures : List Error

namespace Shared

section Runs

variable {σ C Sn π : Type}

def start (room : Room σ C Sn π) : Shared σ C Sn π :=
  { room, phase := .idle, submissions := [], log := fun _ => [], failures := [] }

def enter (shared : Shared σ C Sn π) (room : Room σ C Sn π) (phase : Phase Sn) :
    Shared σ C Sn π :=
  { shared with room, phase, log := logged room.history shared.log }

def fail (shared : Shared σ C Sn π) (room : Room σ C Sn π) (error : Error) : Shared σ C Sn π :=
  { shared.enter (room.count (fun counters =>
      { counters with tickFailures := counters.tickFailures + 1 })) .idle with
    failures := shared.failures ++ [error] }

def sendAt (shared : Shared σ C Sn π) (index : Nat) : Option (Shared σ C Sn π) :=
  match shared.submissions[index]? with
  | none => none
  | some input =>
    if shared.room.queue.length < shared.room.config.commandCapacity then
      some { shared with
        room := shared.room.enqueue input.target input.command
        submissions := shared.submissions.eraseIdx index }
    else none

def refuseAt (shared : Shared σ C Sn π) (index : Nat) : Option (Shared σ C Sn π) :=
  if shared.room.queue.length < shared.room.config.commandCapacity then none
  else some { shared with
    room := shared.room.count (fun counters =>
      { counters with queueFull := counters.queueFull + 1 })
    submissions := shared.submissions.eraseIdx index }

def drainStep (env : Environment σ C Sn π) (shared : Shared σ C Sn π) : Shared σ C Sn π :=
  match (Room.drainPhase env).call shared.room with
  | (.ok late, room) => shared.enter room (.drained late)
  | (.error error, room) => shared.fail room error

def simulateStep (env : Environment σ C Sn π) (shared : Shared σ C Sn π) (late : Option Nat) :
    Shared σ C Sn π :=
  match (Room.simulatePhase env late).call shared.room with
  | (.ok executed, room) => shared.enter room (.simulated executed)
  | (.error error, room) => shared.fail room error

def step (env : Environment σ C Sn π) (shared : Shared σ C Sn π) :
    Action C → Option (Shared σ C Sn π)
  | .validate target command =>
    match shared.room.validate target command with
    | .ok _ => some { shared with submissions := shared.submissions ++ [{ target, command }] }
    | .error _ => some shared
  | .send index => shared.sendAt index
  | .refuse index => shared.refuseAt index
  | .cancel index => some { shared with submissions := shared.submissions.eraseIdx index }
  | .drain =>
    match shared.phase with
    | .idle => some (shared.drainStep env)
    | _ => none
  | .simulate =>
    match shared.phase with
    | .drained late => some (shared.simulateStep env late)
    | _ => none
  | .storeCurrent =>
    match shared.phase with
    | .simulated executed => some { shared with
        room := shared.room.storeCurrent env executed
        phase := .stored executed.tick.number }
    | _ => none
  | .storeFinalized =>
    match shared.phase with
    | .stored number => some { shared with
        room := shared.room.storeFinalized number
        phase := .idle }
    | _ => none

def run (env : Environment σ C Sn π) : List (Action C) → Shared σ C Sn π →
    Option (Shared σ C Sn π)
  | [], shared => some shared
  | action :: actions, shared => (shared.step env action).bind (run env actions)

/-- The four steps of an advance are taken in their order. -/
theorem step_advance {env : Environment σ C Sn π} {shared next : Shared σ C Sn π}
    {action : Action C} (stepped : shared.step env action = some next) :
    match action with
    | .drain => shared.phase = .idle ∧ next = shared.drainStep env
    | .simulate => ∃ late, shared.phase = .drained late ∧ next = shared.simulateStep env late
    | .storeCurrent => ∃ executed, shared.phase = .simulated executed ∧ next = { shared with
        room := shared.room.storeCurrent env executed, phase := .stored executed.tick.number }
    | .storeFinalized => ∃ number, shared.phase = .stored number ∧
        next = { shared with room := shared.room.storeFinalized number, phase := .idle }
    | _ => True := by
  cases action with
  | validate | send | refuse | cancel => trivial
  | drain =>
    simp only [step] at stepped
    split at stepped
    · rename_i idle
      cases stepped
      exact ⟨idle, rfl⟩
    · cases stepped
  | simulate | storeCurrent | storeFinalized =>
    simp only [step] at stepped
    split at stepped
    · rename_i reached
      cases stepped
      exact ⟨_, reached, rfl⟩
    · cases stepped

def Quiet (shared : Shared σ C Sn π) : Prop :=
  Room.Quiet shared.room.finalized shared.room.queue { shared.room with queue := [] }

instance (shared : Shared σ C Sn π) : Decidable shared.Quiet :=
  inferInstanceAs (Decidable (Room.Quiet _ _ _))

def Calm (env : Environment σ C Sn π) : List (Action C) → Shared σ C Sn π → Prop
  | [], _ => True
  | action :: actions, shared =>
    (action = .drain → shared.Quiet) ∧
      match shared.step env action with
      | none => True
      | some next => Calm env actions next

instance instDecidableCalm [DecidableEq C] (env : Environment σ C Sn π) :
    ∀ (actions : List (Action C)) (shared : Shared σ C Sn π), Decidable (Calm env actions shared)
  | [], _ => isTrue trivial
  | action :: actions, shared =>
    have : Decidable (match shared.step env action with
        | none => True
        | some next => Calm env actions next) :=
      match shared.step env action with
      | none => isTrue trivial
      | some next => instDecidableCalm env actions next
    inferInstanceAs (Decidable (_ ∧ _))

end Runs

section Invariant

variable {σ C Sn π : Type} {env : Environment σ C Sn π} {initial : σ} {config : RoomConfig}
variable {shared next : Shared σ C Sn π}
variable {room : Room σ C Sn π} {index : Nat} {later : Shared σ C Sn π} {actions : List (Action C)}

def PhaseInvariant (env : Environment σ C Sn π) (initial : σ) (shared : Shared σ C Sn π) : Prop :=
  match shared.phase with
  | .idle => Idle env initial shared.log shared.room
  | .drained late => Merged env initial shared.log shared.room late
  | .simulated executed => Ahead env initial shared.log shared.room executed
  | .stored number => Room.Stored env initial shared.log shared.room ∧ number = shared.room.current

structure Invariant (env : Environment σ C Sn π) (initial : σ) (config : RoomConfig)
    (shared : Shared σ C Sn π) : Prop where
  configured : shared.room.config = config
  phase : PhaseInvariant env initial shared
  queued : ∀ input ∈ shared.room.queue, 0 < input.target
  submitted : ∀ input ∈ shared.submissions, 0 < input.target
  failures : shared.failures = []

def head (shared : Shared σ C Sn π) : Nat :=
  match shared.phase with
  | .simulated _ => shared.room.current + 1
  | _ => shared.room.current

structure Represents (shared : Shared σ C Sn π) (ledger : Ledger (List (Command C))) : Prop where
  log : ledger.log = shared.log
  floor : ledger.floor = shared.room.finalized
  head : ledger.head = shared.head

def Simulates (before after : Shared σ C Sn π) : Prop :=
  ∀ ledger, Represents before ledger → ∃ next, Ledger.Reachable ledger next ∧ Represents after next

theorem simulates_of_eq {before after : Shared σ C Sn π} (log : after.log = before.log)
    (finalized : after.room.finalized = before.room.finalized) (head : after.head = before.head) :
    Simulates before after := by
  intro ledger represents
  refine ⟨ledger, .refl, ?_⟩
  exact ⟨represents.log.trans log.symm, represents.floor.trans finalized.symm,
    represents.head.trans head.symm⟩

theorem PhaseInvariant.submission (invariant : PhaseInvariant env initial shared)
    (queue : List (Submitted C)) (counters : Counters) (submissions : List (Submitted C)) :
    PhaseInvariant env initial { shared with
      room := { shared.room with queue, counters }, submissions } := by
  unfold PhaseInvariant at invariant ⊢
  cases phase : shared.phase with
  | idle | drained | simulated =>
    simp only [phase] at invariant ⊢
    exact invariant.submission queue counters
  | stored =>
    simp only [phase] at invariant ⊢
    exact ⟨invariant.1.submission queue counters, invariant.2⟩

theorem Invariant.submission (invariant : Invariant env initial config shared)
    {queue submissions : List (Submitted C)} {counters : Counters}
    (queued : ∀ input ∈ queue, 0 < input.target)
    (submitted : ∀ input ∈ submissions, 0 < input.target) :
    Invariant env initial config { shared with
      room := { shared.room with queue, counters }, submissions } :=
  ⟨invariant.configured, invariant.phase.submission queue counters submissions, queued, submitted,
    invariant.failures⟩

theorem validate_positive {target : Nat} {command : Command C}
    (valid : room.validate target command = .ok ()) : 0 < target := by
  unfold Room.validate at valid
  split_ifs at valid with malformed
  omega

variable (contract : Contract env config.maxSnapshotBytes) (accepting : Accepts env)
variable (invariant : Invariant env initial config shared)
include invariant

theorem Invariant.erase (index : Nat) :
    ∀ input ∈ shared.submissions.eraseIdx index, 0 < input.target :=
  fun input member => invariant.submitted input (List.mem_of_mem_eraseIdx member)

theorem Invariant.send (sent : shared.sendAt index = some next) :
    Invariant env initial config next ∧ Simulates shared next := by
  unfold sendAt at sent
  split at sent
  · cases sent
  · rename_i input found
    split_ifs at sent
    cases sent
    refine ⟨invariant.submission ?_ (invariant.erase index), simulates_of_eq rfl rfl rfl⟩
    exact List.forall_mem_append.mpr ⟨invariant.queued, List.forall_mem_singleton.mpr
      (invariant.submitted input (List.mem_of_getElem? found))⟩

theorem Invariant.refuse (refused : shared.refuseAt index = some next) :
    Invariant env initial config next ∧ Simulates shared next := by
  unfold refuseAt at refused
  split_ifs at refused
  cases refused
  exact ⟨invariant.submission invariant.queued (invariant.erase index), simulates_of_eq rfl rfl rfl⟩

include contract in
theorem Invariant.drain (idle : shared.phase = .idle) (quiet : shared.Quiet) :
    Invariant env initial config (shared.drainStep env) ∧
      Simulates shared (shared.drainStep env) := by
  have state := invariant.phase
  simp only [PhaseInvariant, idle] at state
  obtain ⟨late, after, drained, merged, outside, frame⟩ := Room.drainPhase_ok
    (invariant.configured ▸ contract) state invariant.queued quiet
  simp only [drainStep, drained]
  obtain ⟨config, current, finalized, queue⟩ : after.config = shared.room.config ∧
      after.current = shared.room.current ∧ after.finalized = shared.room.finalized ∧
      after.queue = [] := by
    obtain ⟨_, _, _, _, _, rfl⟩ := frame
    exact ⟨rfl, rfl, rfl, rfl⟩
  constructor
  · refine ⟨config.trans invariant.configured, merged, ?_, invariant.submitted, invariant.failures⟩
    intro input member
    change input ∈ after.queue at member
    rw [queue] at member
    cases member
  · intro ledger represents
    have top : ledger.head = shared.room.current := by
      rw [represents.head, head, idle]
    refine ⟨{ ledger with log := logged after.history shared.log },
      ledger.reachable_rewrite _ ?_, rfl, represents.floor.trans finalized.symm,
      top.trans current.symm⟩
    intro entry settled
    rw [represents.log]
    rw [represents.floor, top] at settled
    exact outside entry settled

include contract accepting in
theorem Invariant.simulate {late : Option Nat} (drained : shared.phase = .drained late) :
    Invariant env initial config (shared.simulateStep env late) ∧
      Simulates shared (shared.simulateStep env late) := by
  have state := invariant.phase
  simp only [PhaseInvariant, drained] at state
  obtain ⟨executed, commands, after, simulated, ahead, extended, frame⟩ := Room.simulatePhase_ok
    (invariant.configured ▸ contract) state (fun _ _ _ _ _ => accepted_of_ok accepting _ _)
  simp only [simulateStep, simulated]
  obtain ⟨config, current, finalized, queue⟩ : after.config = shared.room.config ∧
      after.current = shared.room.current ∧ after.finalized = shared.room.finalized ∧
      after.queue = shared.room.queue := by
    obtain ⟨_, _, _, _, _, _, rfl⟩ := frame
    exact ⟨rfl, rfl, rfl, rfl⟩
  constructor
  · refine ⟨config.trans invariant.configured, ?_, ?_, invariant.submitted, invariant.failures⟩
    · change Ahead env initial (logged after.history shared.log) after executed
      rw [extended]
      exact ahead
    · change ∀ input ∈ after.queue, _
      rw [queue]
      exact invariant.queued
  · intro ledger represents
    have top : ledger.head = shared.room.current := by
      rw [represents.head, head, drained]
    refine ⟨_, .single (.extend ledger commands), ?_, represents.floor.trans finalized.symm, ?_⟩
    · change Function.update ledger.log (ledger.head + 1) commands = logged after.history shared.log
      rw [extended, represents.log, top]
    · change ledger.head + 1 = after.current + 1
      rw [top, current]

theorem Invariant.storeCurrent {executed : Room.Executed Sn}
    (simulated : shared.phase = .simulated executed) :
    Invariant env initial config { shared with
        room := shared.room.storeCurrent env executed, phase := .stored executed.tick.number } ∧
      Simulates shared { shared with
        room := shared.room.storeCurrent env executed, phase := .stored executed.tick.number } := by
  have state := invariant.phase
  simp only [PhaseInvariant, simulated] at state
  have number : executed.tick.number = shared.room.current + 1 := by
    rw [state.tick]
    rfl
  obtain ⟨stored, current, _, _, _, _, frame⟩ := Room.storeCurrent_stored state
  constructor
  · refine ⟨?_, ⟨stored, number.trans current.symm⟩, ?_, invariant.submitted, invariant.failures⟩
    · simp only [frame]
      exact invariant.configured
    · simp only [frame]
      exact invariant.queued
  · refine simulates_of_eq rfl ?_ ?_
    · simp only [frame]
    · simp only [head, simulated, current]

theorem Invariant.storeFinalized {number : Nat} (phase : shared.phase = .stored number) :
    Invariant env initial config { shared with
        room := shared.room.storeFinalized number, phase := .idle } ∧
      Simulates shared { shared with
        room := shared.room.storeFinalized number, phase := .idle } := by
  have state := invariant.phase
  simp only [PhaseInvariant, phase] at state
  obtain ⟨stored, rfl⟩ := state
  obtain ⟨idle, later, finalized, _, _, _, frame⟩ := Room.storeFinalized_idle stored
  have current : (shared.room.storeFinalized shared.room.current).current = shared.room.current := by
    rw [frame]
  constructor
  · refine ⟨?_, idle, ?_, invariant.submitted, invariant.failures⟩
    · simp only [frame]
      exact invariant.configured
    · simp only [frame]
      exact invariant.queued
  · intro ledger represents
    have top : ledger.head = shared.room.current := by
      rw [represents.head, head, phase]
    have bound : (shared.room.storeFinalized shared.room.current).finalized ≤ ledger.head := by
      rw [idle.floor]
      omega
    refine ⟨_, .single (.settle ledger _ ?_ bound), represents.log, rfl, top.trans current.symm⟩
    rw [represents.floor]
    exact later

include contract accepting in
theorem Invariant.step {action : Action C} (permitted : action = .drain → shared.Quiet)
    (stepped : shared.step env action = some next) :
    Invariant env initial config next ∧ Simulates shared next := by
  cases action with
  | validate target command =>
    simp only [Shared.step] at stepped
    cases valid : shared.room.validate target command with
    | error =>
      simp only [valid, Option.some.injEq] at stepped
      subst next
      exact ⟨invariant, simulates_of_eq rfl rfl rfl⟩
    | ok =>
      simp only [valid, Option.some.injEq] at stepped
      subst next
      refine ⟨invariant.submission invariant.queued ?_, simulates_of_eq rfl rfl rfl⟩
      exact List.forall_mem_append.mpr
        ⟨invariant.submitted, List.forall_mem_singleton.mpr (validate_positive valid)⟩
  | send => exact invariant.send stepped
  | refuse => exact invariant.refuse stepped
  | cancel index =>
    simp only [Shared.step, Option.some.injEq] at stepped
    subst next
    exact ⟨invariant.submission invariant.queued (invariant.erase index),
      simulates_of_eq rfl rfl rfl⟩
  | drain =>
    obtain ⟨idle, rfl⟩ := step_advance stepped
    exact invariant.drain contract idle (permitted rfl)
  | simulate =>
    obtain ⟨late, drained, rfl⟩ := step_advance stepped
    exact invariant.simulate contract accepting drained
  | storeCurrent =>
    obtain ⟨executed, simulated, rfl⟩ := step_advance stepped
    exact invariant.storeCurrent simulated
  | storeFinalized =>
    obtain ⟨number, stored, rfl⟩ := step_advance stepped
    exact invariant.storeFinalized stored

include contract accepting in
/-- A calm run keeps the invariant and is a run of the ledger. -/
theorem Invariant.run (calm : Calm env actions shared)
    (ran : run env actions shared = some later) :
    Invariant env initial config later ∧ Simulates shared later := by
  induction actions generalizing shared with
  | nil =>
    cases ran
    exact ⟨invariant, simulates_of_eq rfl rfl rfl⟩
  | cons action _ ih =>
    obtain ⟨permitted, rest⟩ := calm
    cases stepped : shared.step env action with
    | none => simp [Shared.run, stepped] at ran
    | some =>
      simp only [Shared.run, stepped, Option.bind_some] at ran
      simp only [stepped] at rest
      obtain ⟨kept, simulated⟩ := invariant.step contract accepting permitted stepped
      obtain ⟨final, continued⟩ := ih kept rest ran
      refine ⟨final, fun ledger represents => ?_⟩
      obtain ⟨middle, early, represented⟩ := simulated ledger represents
      obtain ⟨last, late, final⟩ := continued middle represented
      exact ⟨last, early.trans late, final⟩

theorem Invariant.bounded : shared.room.finalized ≤ shared.head := by
  have state := invariant.phase
  unfold PhaseInvariant at state
  unfold head
  cases phase : shared.phase with
  | idle =>
    simp only [phase] at state ⊢
    rw [state.floor]
    omega
  | drained | simulated =>
    simp only [phase] at state ⊢
    rw [state.synced.floor]
    omega
  | stored =>
    simp only [phase] at state ⊢
    rw [state.1.floor]
    omega

include contract accepting in
theorem Invariant.settled (calm : Calm env actions shared)
    (ran : Shared.run env actions shared = some later) :
    ∀ time ≤ shared.room.finalized, later.log time = shared.log time := by
  let ledger : Ledger (List (Command C)) :=
    { log := shared.log, floor := shared.room.finalized, head := shared.head
      bounded := invariant.bounded }
  obtain ⟨next, reachable, represents⟩ :=
    (invariant.run contract accepting calm ran).2 ledger ⟨rfl, rfl, rfl⟩
  intro time settled
  rw [← represents.log]
  exact (Ledger.settled_of_reachable reachable).2 time settled

theorem Invariant.recorded (time : Nat) (record : TickRecord C Sn) (found : shared.room.history[time]? = some record) :
    record.commands = shared.log time := by
  have complete : logged shared.room.history shared.log = shared.log := by
    have state := invariant.phase
    unfold PhaseInvariant at state
    cases phase : shared.phase with
    | idle =>
      simp only [phase] at state
      cases done : shared.room.initialized with
      | false =>
        funext time
        simp [logged, (state.fresh done).1]
      | true => exact logged_eq (state.synced done).history
    | drained | simulated =>
      simp only [phase] at state
      exact logged_eq state.synced.history
    | stored =>
      simp only [phase] at state
      exact logged_eq state.1.history
  have here := congrFun complete time
  simp only [logged, found] at here
  exact here

omit invariant in
theorem invariant_start {id : String}
    {observer : Option (List (Observation C Sn) → Except Error Unit)}
    (created : Room.withObserver id config initial observer = .ok room) (publisher : Option π) :
    Invariant env initial config (start { room with publisher }) := by
  rw [withObserver_ok created]
  refine ⟨rfl, idle_fresh env id config initial observer publisher, ?_, ?_, rfl⟩
  all_goals
    intro input member
    cases member

end Invariant

section Results

variable {σ C Sn π : Type}

/-- In a calm run no advance fails and finalized command lists are kept, however
submissions and phases interleave; a drain that is not calm breaks this. -/
theorem overlap_harmless (env : Environment σ C Sn π) (id : String) (config : RoomConfig)
    (initial : σ) (observer : Option (List (Observation C Sn) → Except Error Unit))
    (publisher : Option π) (room : Room σ C Sn π)
    (created : Room.withObserver id config initial observer = .ok room)
    (contract : Contract env config.maxSnapshotBytes)
    (accepting : ∀ command state, (env.simulation.apply command state).1 = .ok ())
    (actions : List (Action C)) (shared : Shared σ C Sn π)
    (calm : Calm env actions (start { room with publisher }))
    (ran : run env actions (start { room with publisher }) = some shared) :
    shared.failures = [] ∧
      (∀ time record, shared.room.history[time]? = some record →
        record.commands = shared.log time) ∧
      (∀ more later, Calm env more shared → run env more shared = some later →
        ∀ time ≤ shared.room.finalized, later.log time = shared.log time) ∧
      (shared.phase = .idle → ¬shared.Quiet → ∃ next time, shared.step env .drain = some next ∧
        time ≤ shared.room.finalized ∧ next.log time ≠ shared.log time) := by
  have invariant := (Invariant.run contract accepting (invariant_start created publisher) calm ran).1
  refine ⟨invariant.failures, invariant.recorded,
    fun more later calmly continued => invariant.settled contract accepting calmly continued, ?_⟩
  intro idle noisy
  have state := invariant.phase
  simp only [PhaseInvariant, idle] at state
  obtain ⟨late, after, time, drained, settled, changed⟩ :=
    Room.drainPhase_disturbs state invariant.queued noisy
  refine ⟨shared.drainStep env, time, ?_, settled, ?_⟩
  · simp only [step, idle]
  · simp only [drainStep, drained]
    exact changed

def advanceWith {C : Type} (overlap : List (Action C)) : List (Action C) :=
  [.drain] ++ overlap ++ [.simulate, .storeCurrent, .storeFinalized]

def slowSubmission : List (Action Nat) :=
  [.validate 1 (counterCommand 1 1)] ++ advanceWith [.send 0]

def sampleOverlap : List (Action Nat) :=
  [.validate 2 (counterCommand 1 1)] ++ advanceWith [.send 0]

theorem overlap_harmless_sampleOverlap :
    ∃ shared, run accepting sampleOverlap (start (counterRoom .default)) = some shared ∧
      shared.room.finalized = 1 ∧ shared.room.queue.length = 1 ∧ shared.failures = [] ∧
      ∀ more later, Calm accepting more shared → run accepting more shared = some later →
        later.log 1 = shared.log 1 := by
  have calm : Calm accepting sampleOverlap (start (counterRoom .default)) := by decide +kernel
  have evaluated : (run accepting sampleOverlap (start (counterRoom .default))).map
      (fun shared => (shared.room.finalized, shared.room.queue.length)) = some (1, 1) := by
    decide +kernel
  obtain ⟨shared, ran, values⟩ := Option.map_eq_some_iff.mp evaluated
  obtain ⟨finalized, queued⟩ := Prod.mk.inj values
  obtain ⟨failures, _, settled, _⟩ := overlap_harmless accepting "counter" .default 0 none none
    (counterRoom .default) rfl (counter_contract _ (by decide)) (fun _ _ => rfl) sampleOverlap shared
    calm ran
  refine ⟨shared, ran, finalized, queued, failures, fun more later calmly continued => ?_⟩
  exact settled more later calmly continued 1 (le_of_eq finalized.symm)

theorem late_send_fails :
    Room.withObserver "counter" .default 0 none = .ok (counterRoom .default) ∧
      Contract accepting RoomConfig.default.maxSnapshotBytes ∧
      (∀ command state, (accepting.simulation.apply command state).1 = .ok ()) ∧
      (run accepting slowSubmission (start (counterRoom .default))).map
        (fun shared => (shared.room.finalized, shared.log 1, shared.failures)) = some (1, [], []) ∧
      (run accepting (slowSubmission ++ [.drain, .simulate]) (start (counterRoom .default))).map
        (fun shared => (shared.room.finalized, shared.log 1, shared.failures)) =
        some (1, [counterCommand 1 1], [.invalidConfig "rollback window"]) := by
  refine ⟨rfl, counter_contract _ (by decide), fun _ _ => rfl, ?_⟩
  decide +kernel

end Results

end Shared

end Elura.Realtime
