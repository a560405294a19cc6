import Elura.Realtime.Rollback

/-!
The invariant of a room in each phase of an advance and the lemma that takes it
to the next phase. `log` is the list of recorded commands of every tick, those
already trimmed from the history included.
-/

namespace Elura.Realtime

open Fallible Function

open Std (ExtTreeMap)
open OrderedMap (getElem?_insert_ite getElem?_filter_key)

section Invariants

variable {σ C Sn π : Type}
variable {initial : σ} {room : Room σ C Sn π} {simulation : AuthoritativeSimulation σ C Sn}
  {delta : Nat} {log : Nat → List (Command C)}

def logged (history : ExtTreeMap Nat (TickRecord C Sn)) (log : Nat → List (Command C)) (time : Nat) :
    List (Command C) :=
  match history[time]? with
  | some record => record.commands
  | none => log time

structure Synced (env : Environment σ C Sn π) (initial : σ) (log : Nat → List (Command C))
    (room : Room σ C Sn π) (top good : Nat) : Prop where
  start : log 0 = []
  floor : room.finalized = room.current - room.config.rollbackWindowTicks
  initialized : room.initialized = true
  history : Coherent env room.delta initial log room.history room.finalized top good
  accepted : ∀ time, time < top → time + 1 < good → Accepted env.simulation (log (time + 1))
    (stateAt env.simulation room.delta initial log time)

structure Idle (env : Environment σ C Sn π) (initial : σ) (log : Nat → List (Command C))
    (room : Room σ C Sn π) : Prop where
  start : log 0 = []
  floor : room.finalized = room.current - room.config.rollbackWindowTicks
  live : room.simulation = stateAt env.simulation room.delta initial log room.current
  fresh : room.initialized = false → room.history = ∅ ∧ room.current = 0
  synced : room.initialized = true → Synced env initial log room room.current (room.current + 1)

structure Merged (env : Environment σ C Sn π) (initial : σ) (log : Nat → List (Command C))
    (room : Room σ C Sn π) (late : Option Nat) : Prop where
  synced : Synced env initial log room room.current (late.getD (room.current + 1))
  bounds : ∀ first, late = some first → room.finalized < first ∧ first ≤ room.current
  live : late = none →
    room.simulation = stateAt env.simulation room.delta initial log room.current

structure Ahead (env : Environment σ C Sn π) (initial : σ) (log : Nat → List (Command C))
    (room : Room σ C Sn π) (executed : Room.Executed Sn) : Prop where
  tick : executed.tick = room.tick (room.current + 1)
  synced : Synced env initial log room (room.current + 1) (room.current + 2)
  live : room.simulation = stateAt env.simulation room.delta initial log (room.current + 1)

theorem withObserver_ok {id : String} {config : RoomConfig}
    {observer : Option (List (Observation C Sn) → Except Error Unit)}
    (created : Room.withObserver id config initial observer = .ok room) :
    room = .fresh id config initial observer := by
  unfold Room.withObserver at created
  cases checked : config.validate with
  | error => simp [checked, bind, Except.bind] at created
  | ok =>
    simp only [checked, bind, Except.bind, pure] at created
    split_ifs at created
    exact (Except.ok.inj created).symm

theorem idle_fresh (env : Environment σ C Sn π) (id : String) (config : RoomConfig) (initial : σ)
    (observer : Option (List (Observation C Sn) → Except Error Unit)) (publisher : Option π) :
    Idle env initial (fun _ => [])
      { (Room.fresh id config initial observer : Room σ C Sn π) with publisher } := by
  refine ⟨rfl, (Nat.zero_sub _).symm, rfl, fun _ => ⟨rfl, rfl⟩, ?_⟩
  intro impossible
  cases impossible

section Submission

variable {env : Environment σ C Sn π} {initial : σ} {log : Nat → List (Command C)}
variable {room : Room σ C Sn π} (queue : List (Submitted C)) (counters : Counters)

theorem Synced.submission {top good : Nat} (synced : Synced env initial log room top good) :
    Synced env initial log { room with queue, counters } top good :=
  { synced with }

theorem Idle.submission (idle : Idle env initial log room) :
    Idle env initial log { room with queue, counters } :=
  { idle with synced := fun done => (idle.synced done).submission queue counters }

theorem Merged.submission {late : Option Nat} (merged : Merged env initial log room late) :
    Merged env initial log { room with queue, counters } late :=
  { merged with synced := merged.synced.submission queue counters }

theorem Ahead.submission {executed : Room.Executed Sn}
    (ahead : Ahead env initial log room executed) :
    Ahead env initial log { room with queue, counters } executed :=
  { ahead with synced := ahead.synced.submission queue counters }

end Submission

theorem stateAt_congr {other : Nat → List (Command C)} (time : Nat)
    (same : ∀ entry, 0 < entry → entry ≤ time → log entry = other entry) :
    stateAt simulation delta initial log time = stateAt simulation delta initial other time :=
  timeline_congr _ _ time same

theorem stateAt_update {top time : Nat} (commands : List (Command C)) (below : time ≤ top) :
    stateAt simulation delta initial (Function.update log (top + 1) commands) time =
      stateAt simulation delta initial log time :=
  stateAt_congr time (fun _ _ bound => Function.update_of_ne (by omega) _ _)

theorem stateAt_update_succ (simulation : AuthoritativeSimulation σ C Sn) (delta : Nat) (initial : σ)
    (log : Nat → List (Command C)) (top : Nat) (commands : List (Command C)) :
    stateAt simulation delta initial (Function.update log (top + 1) commands) (top + 1) =
      tickState simulation delta (top + 1) commands (stateAt simulation delta initial log top) := by
  change tickState _ _ _ (update log (top + 1) commands (top + 1))
    (stateAt simulation delta initial (update log (top + 1) commands) top) = _
  rw [update_self, stateAt_update commands (le_refl top)]

section Coherent

variable {env : Environment σ C Sn π} {delta lower top good : Nat} {initial : σ}
variable {log : Nat → List (Command C)} {history : ExtTreeMap Nat (TickRecord C Sn)}

section

variable (coherent : Coherent env delta initial log history lower top good)
include coherent

theorem Coherent.inside {time : Nat} {record : TickRecord C Sn}
    (found : history[time]? = some record) : lower ≤ time ∧ time ≤ top := by
  by_contra outside
  rw [coherent.absent time outside] at found
  cases found

theorem Coherent.recorded {time : Nat} {record : TickRecord C Sn}
    (found : history[time]? = some record) :
    record.commands = log time ∧ (time < good →
      Captures env (tickAt delta time) (stateAt env.simulation delta initial log time)
        record.snapshot record.hash) := by
  obtain ⟨above, below⟩ := coherent.inside found
  obtain ⟨other, existing, facts⟩ := coherent.retained time above below
  rw [found, Option.some.injEq] at existing
  subst other
  exact facts

theorem Coherent.logged_of_outside {older : Nat → List (Command C)}
    (outside : ∀ time, ¬(lower ≤ time ∧ time ≤ top) → log time = older time) :
    logged history older = log := by
  funext time
  unfold logged
  by_cases inside : lower ≤ time ∧ time ≤ top
  · obtain ⟨record, found, same, _⟩ := coherent.retained time inside.1 inside.2
    rw [found]
    exact same
  · rw [coherent.absent time inside]
    exact (outside time inside).symm

theorem logged_eq : logged history log = log :=
  coherent.logged_of_outside (fun _ _ => rfl)

theorem Coherent.trim {through : Nat} (later : lower ≤ through) :
    Coherent env delta initial log (history.filter (fun tick _ => through ≤ tick)) through top
      good := by
  constructor
  · intro time above below
    rw [getElem?_filter_key, if_pos above]
    exact coherent.retained time (by omega) below
  · intro time outside
    rw [getElem?_filter_key]
    split
    · exact coherent.absent time (by omega)
    · rfl

end

theorem Coherent.extend {commands : List (Command C)} {snapshot : Sn} {hash : StateHash}
    (coherent : Coherent env delta initial log history lower top (top + 1))
    (captures : Captures env (tickAt delta (top + 1))
      (tickState env.simulation delta (top + 1) commands
        (stateAt env.simulation delta initial log top)) snapshot hash) (bound : lower ≤ top) :
    Coherent env delta initial (Function.update log (top + 1) commands)
      (history.insert (top + 1) { commands, snapshot, hash }) lower (top + 1) (top + 2) := by
  constructor
  · intro time above below
    rw [getElem?_insert_ite]
    by_cases here : top + 1 = time
    · subst time
      refine ⟨{ commands, snapshot, hash }, if_pos rfl, ?_, fun _ => ?_⟩
      · rw [update_self]
      · rw [stateAt_update_succ]
        exact captures
    · obtain ⟨record, found, same, correct⟩ := coherent.retained time above (by omega)
      refine ⟨record, (if_neg here).trans found, ?_, fun _ => ?_⟩
      · rw [same, update_of_ne (Ne.symm here)]
      · rw [stateAt_update commands (by omega)]
        exact correct (by omega)
  · intro time outside
    rw [getElem?_insert_ite, if_neg (by omega)]
    exact coherent.absent time (by omega)

end Coherent

theorem Idle.logged_eq {env : Environment σ C Sn π} {newer : Nat → List (Command C)}
    (idle : Idle env initial newer room) (initialized : room.initialized = true)
    (outside : ∀ time, ¬(room.finalized ≤ time ∧ time ≤ room.current) → newer time = log time) :
    logged room.history log = newer :=
  (idle.synced initialized).history.logged_of_outside outside

end Invariants

namespace Room

section Phases

variable {σ C Sn π : Type} {env : Environment σ C Sn π} {initial : σ}
variable {log : Nat → List (Command C)}
variable {room : Room σ C Sn π}

/-- Late commands leave every tick before the earliest late tick as it was. -/
theorem Drained.logged_before {lower top : Nat} {before after : Room σ C Sn π} {late : Option Nat}
    (drained : Drained lower before late after)
    (coherent : Coherent env before.delta initial log before.history lower top (top + 1))
    (time : Nat) (earlier : ∀ first, late = some first → time < first) :
    logged after.history log time = log time := by
  unfold logged
  rcases drained.history time with ⟨_, absent⟩ | ⟨record, more, known, now, changed⟩
  · rw [absent]
  · have same := (coherent.recorded known).1
    have unchanged : more = [] := by
      by_contra nonempty
      obtain ⟨first, chosen, below, _⟩ := changed nonempty
      have above := earlier first chosen
      omega
    simp only [now, unchanged, List.append_nil, same]

theorem Drained.merged {before after : Room σ C Sn π} {late : Option Nat}
    (drained : Drained before.finalized before late after)
    (synced : Synced env initial log before before.current (before.current + 1))
    (live : before.simulation = stateAt env.simulation before.delta initial log before.current) :
    Merged env initial (logged after.history log) after late := by
  have untouched := fun time => drained.logged_before synced.history time
  have sameState : ∀ time, (∀ first, late = some first → time < first) →
      stateAt env.simulation before.delta initial (logged after.history log) time =
        stateAt env.simulation before.delta initial log time := by
    intro time earlier
    refine stateAt_congr time (fun entry _ bound => untouched entry ?_)
    intro first chosen
    have above := earlier first chosen
    omega
  have bounds := drained.bounds
  have history := drained.history
  obtain ⟨_, _, _, _, _, rfl⟩ := drained.frame
  refine ⟨⟨?_, synced.floor, synced.initialized, ⟨?_, ?_⟩, ?_⟩, bounds, ?_⟩
  · rw [untouched 0 (fun first chosen => by have := (bounds first chosen).1; omega), synced.start]
  · intro time above below
    obtain ⟨record, found, same, correct⟩ := synced.history.retained time above below
    rcases history time with ⟨absent, _⟩ | ⟨old, more, known, now, _⟩
    · rw [absent] at found
      cases found
    · rw [known, Option.some.injEq] at found
      subst old
      refine ⟨_, now, ?_, fun good => ?_⟩
      · simp only [logged, now]
      · have earlier : ∀ first, late = some first → time < first := by
          intro first chosen
          subst late
          exact good
        simp only [sameState time earlier]
        exact correct (Nat.lt_succ_of_le below)
  · intro time outside
    rcases history time with ⟨_, absent⟩ | ⟨old, more, known, _⟩
    · exact absent
    · exact absurd (synced.history.inside known) outside
  · intro time below good
    have earlier : ∀ first, late = some first → time + 1 < first := by
      intro first chosen
      subst late
      exact good
    simp only [sameState time (fun first chosen => by have := earlier first chosen; omega)]
    rw [untouched (time + 1) earlier]
    exact synced.accepted time below (Nat.succ_lt_succ below)
  · intro none_
    simp only [sameState before.current (fun first chosen => by rw [none_] at chosen; cases chosen)]
    exact live

variable (contract : Contract env room.config.maxSnapshotBytes) (idle : Idle env initial log room)
variable (positive : ∀ input ∈ room.queue, 0 < input.target)
variable (quiet : Quiet room.finalized room.queue { room with queue := [] })

include contract idle positive quiet in
theorem initializeHistory_synced :
    ∃ counters history,
      (initializeHistory env).call room =
        (.ok (), { room with initialized := true, counters, history }) ∧
      Synced env initial log { room with initialized := true, counters, history }
        room.current (room.current + 1) ∧
      Quiet room.finalized room.queue
        { room with queue := [], initialized := true, counters, history } := by
  cases done : room.initialized with
  | true =>
    refine ⟨room.counters, room.history, ?_, ?_, ?_⟩
    · rw [initializeHistory_done done, ← done]
    · rw [← done]
      exact idle.synced done
    · rw [← done]
      exact quiet
  | false =>
    obtain ⟨empty, zero⟩ := idle.fresh done
    obtain ⟨snapshot, hash, counters, captures, captured⟩ := capture_ok room contract (room.tick 0)
    have base : room.finalized = 0 := by
      have floor := idle.floor
      omega
    rw [idle.live, zero] at captures
    refine ⟨counters, room.history.insert 0 { commands := [], snapshot, hash }, ?_,
      ⟨idle.start, idle.floor, rfl, ⟨?_, ?_⟩, ?_⟩, ?_⟩
    · simp only [initializeHistory, call_bind, call_get, done, if_true, captured, call_modify]
    · intro time above below
      have here : time = 0 := Nat.le_zero.mp (zero ▸ below)
      subst time
      refine ⟨{ commands := [], snapshot, hash }, ?_, idle.start.symm, fun _ => captures⟩
      simp
    · intro time outside
      have later : ¬0 = time := by
        simp only [base] at outside
        omega
      simp only [getElem?_insert_ite, later, empty]
      exact ExtTreeMap.getElem?_empty
    · intro time below
      rw [zero] at below
      omega
    · rw [base]
      exact quiet_of_targets room.queue _ positive

include contract idle positive quiet in
theorem drainPhase_ok :
    ∃ late after, (drainPhase env).call room = (.ok late, after) ∧
      Merged env initial (logged after.history log) after late ∧
      (∀ time, ¬(room.finalized < time ∧ time ≤ room.current) →
        logged after.history log time = log time) ∧
      ∃ counters sequences order pending history, after = { room with
        queue := [], initialized := true, counters, sequences, order, pending, history } := by
  obtain ⟨counters, history, started, synced, still⟩ :=
    initializeHistory_synced contract idle positive quiet
  let ready : Room σ C Sn π :=
    { room with queue := [], initialized := true, counters, history }
  have drained : Drained room.finalized ready (drainQueue room.queue ready none).2
      (drainQueue room.queue ready none).1 :=
    drainQueue_drained room.queue ready none (drained_refl _ _) still
  have ready_synced : Synced env initial log ready ready.current (ready.current + 1) :=
    { synced with }
  refine ⟨(drainQueue room.queue ready none).2, (drainQueue room.queue ready none).1, ?_,
    drained.merged ready_synced idle.live, ?_, ?_⟩
  · simp only [drainPhase, call_bind, started]
    rfl
  · intro time outside
    by_cases below : time ≤ room.finalized
    · refine drained.logged_before ready_synced.history time (fun first chosen => ?_)
      have above := (drained.bounds first chosen).1
      omega
    · unfold logged
      have absent := ready_synced.history.absent time
        (fun inside => outside ⟨Nat.not_le.mp below, inside.2⟩)
      rcases drained.history time with ⟨_, none_⟩ | ⟨record, more, known, _⟩
      · rw [none_]
      · rw [absent] at known
        cases known
  · obtain ⟨counters, sequences, order, pending, history, frame⟩ := drained.frame
    exact ⟨counters, sequences, order, pending, history, frame⟩

theorem drainPhase_initialized (done : room.initialized = true) :
    (drainPhase env).call room = (.ok room.drain.2, room.drain.1) := by
  simp only [drainPhase, call_bind, initializeHistory_done done, call_get, call_set, call_pure]

include idle positive in
/-- A queue that is not quiet rewrites a finalized tick. -/
theorem drainPhase_disturbs (noisy : ¬Quiet room.finalized room.queue { room with queue := [] }) :
    ∃ late after time, (drainPhase env).call room = (.ok late, after) ∧ time ≤ room.finalized ∧
      logged after.history log time ≠ log time := by
  have floor := idle.floor
  cases done : room.initialized with
  | false =>
    have zero := (idle.fresh done).2
    rw [show room.finalized = 0 by omega] at noisy
    exact absurd (quiet_of_targets room.queue _ positive) noisy
  | true =>
    have bounded : room.finalized ≤ room.current := by omega
    obtain ⟨time, record, longer, below, found, final, grown⟩ :=
      drainQueue_disturbs room.queue { room with queue := [] } positive bounded noisy
    refine ⟨room.drain.2, room.drain.1, time, drainPhase_initialized done, below, ?_⟩
    intro same
    have known := congrFun (logged_eq (idle.synced done).history) time
    simp only [logged, drain, final] at same
    simp only [logged] at known
    rw [show room.history[time]? = some record from found] at known
    simp only at known
    rw [same, known] at grown
    exact lt_irrefl _ grown

theorem extend_synced {after : Room σ C Sn π} {commands : List (Command C)} {snapshot : Sn}
    {hash : StateHash}
    (synced : Synced env initial log room room.current (room.current + 1))
    (live : room.simulation = stateAt env.simulation room.delta initial log room.current)
    (valid : Accepted env.simulation commands room.simulation)
    (captures : Captures env (room.tick (room.current + 1))
      (tickState env.simulation room.delta (room.current + 1) commands room.simulation)
      snapshot hash)
    (frame : ∃ pending observations counters, after = { room with
      simulation := tickState env.simulation room.delta (room.current + 1) commands room.simulation
      history := room.history.insert (room.current + 1) { commands, snapshot, hash }
      pending, observations, counters }) :
    Ahead env initial (Function.update log (room.current + 1) commands) after
        { tick := room.tick (room.current + 1), snapshot, hash } ∧
      logged after.history log = Function.update log (room.current + 1) commands := by
  have bound : room.finalized ≤ room.current := by
    rw [synced.floor]
    omega
  rw [live] at valid captures frame
  have coherent := synced.history.extend captures bound
  obtain ⟨pending, observations, counters, rfl⟩ := frame
  refine ⟨⟨rfl, ⟨?_, synced.floor, synced.initialized, coherent, ?_⟩, ?_⟩, ?_⟩
  · exact (update_of_ne (by omega) _ _).trans synced.start
  · intro time below _
    change time < room.current + 1 at below
    change Accepted _ _ (stateAt _ room.delta _ _ time)
    rw [stateAt_update commands (by omega)]
    by_cases here : time = room.current
    · subst time
      rw [update_self]
      exact valid
    · rw [update_of_ne (by omega)]
      exact synced.accepted time (by omega) (by omega)
  · exact (stateAt_update_succ _ _ _ _ _ _).symm
  · funext time
    by_cases here : room.current + 1 = time
    · subst time
      simp [logged]
    · rw [update_of_ne (Ne.symm here)]
      simp only [logged, getElem?_insert_ite, here]
      exact congrFun (logged_eq synced.history) time

/-- No command is rejected when the ticks from the earliest late one on are
executed. -/
def Replays (env : Environment σ C Sn π) (initial : σ) (log : Nat → List (Command C))
    (late : Option Nat) (room : Room σ C Sn π) : Prop :=
  ∀ first, late = some first → ∀ time, first ≤ time + 1 → time < room.current →
    Accepted env.simulation (log (time + 1)) (stateAt env.simulation room.delta initial log time)

include contract in
theorem simulatePhase_ok {late : Option Nat} (merged : Merged env initial log room late)
    (replayable : room.Replays env initial log late) :
    ∃ executed commands after, (simulatePhase env late).call room = (.ok executed, after) ∧
      Ahead env initial (Function.update log (room.current + 1) commands) after executed ∧
      logged after.history log = Function.update log (room.current + 1) commands ∧
      ∃ simulation history pending observations counters publisher, after = { room with
        simulation, history, pending, observations, counters, publisher } := by
  obtain ⟨history, counters, publisher, observations, replayed, coherent, accepted⟩ :
      ∃ history counters publisher observations,
        (resimulateLate env late).call room = (.ok (), { room with
          simulation := stateAt env.simulation room.delta initial log room.current
          history, counters, publisher, observations }) ∧
        Coherent env room.delta initial log history room.finalized room.current
          (room.current + 1) ∧
        ∀ time < room.current, Accepted env.simulation (log (time + 1))
          (stateAt env.simulation room.delta initial log time) := by
    cases late with
    | none =>
      refine ⟨room.history, room.counters, room.publisher, room.observations, ?_,
        merged.synced.history, fun time below => merged.synced.accepted time below ?_⟩
      · simp [resimulateLate, ← merged.live rfl]
      · exact Nat.succ_lt_succ below
    | some first =>
      obtain ⟨above, below⟩ := merged.bounds first rfl
      obtain ⟨history, counters, publisher, observations, computed, coherent⟩ :=
        resimulate_ok contract merged.synced.history above below (replayable first rfl)
      rw [Option.getD_some] at computed
      refine ⟨history, counters, publisher, observations, ?_, coherent, ?_⟩
      · simp only [resimulateLate, call_bind, call_get, computed]
      intro time inside
      by_cases late : first ≤ time + 1
      · exact replayable first rfl time late inside
      · exact merged.synced.accepted time inside (Nat.not_le.mp late)
  let ready : Room σ C Sn π := { room with
    simulation := stateAt env.simulation room.delta initial log room.current
    history, counters, publisher, observations }
  have synced : Synced env initial log ready ready.current (ready.current + 1) :=
    ⟨merged.synced.start, merged.synced.floor, merged.synced.initialized, coherent,
      fun time below _ => accepted time below⟩
  obtain ⟨commands, snapshot, hash, final, executed, valid, captures, _⟩ :=
    executeTick_ok ready contract
  obtain ⟨ahead, known⟩ := extend_synced synced rfl valid captures ⟨_, _, final, rfl⟩
  refine ⟨_, commands, _, ?_, ahead, known, _, _, _, _, final, publisher, rfl⟩
  simp only [simulatePhase, call_bind, replayed]
  exact executed

include contract in
theorem simulatePhase_error {late : Option Nat} (merged : Merged env initial log room late)
    (refused : ¬room.Replays env initial log late) :
    ∃ error after, (simulatePhase env late).call room = (.error error, after) := by
  unfold Replays at refused
  push Not at refused
  obtain ⟨first, rfl, time, after, before, rejected⟩ := refused
  obtain ⟨above, below⟩ := merged.bounds first rfl
  obtain ⟨error, final, failed⟩ := resimulate_error contract merged.synced.history above below
    ⟨time, after, before, rejected⟩
  rw [Option.getD_some] at failed
  refine ⟨error, final, ?_⟩
  simp only [simulatePhase, resimulateLate, call_bind, call_get, failed]

structure Stored (env : Environment σ C Sn π) (initial : σ) (log : Nat → List (Command C))
    (room : Room σ C Sn π) : Prop where
  start : log 0 = []
  floor : room.finalized = room.current - 1 - room.config.rollbackWindowTicks
  initialized : room.initialized = true
  history : Coherent env room.delta initial log room.history room.finalized room.current
    (room.current + 1)
  accepted : ∀ time < room.current, Accepted env.simulation (log (time + 1))
    (stateAt env.simulation room.delta initial log time)
  live : room.simulation = stateAt env.simulation room.delta initial log room.current

theorem Stored.submission (stored : Stored env initial log room) (queue : List (Submitted C))
    (counters : Counters) : Stored env initial log { room with queue, counters } :=
  { stored with }

theorem storeCurrent_stored {executed : Executed Sn} (ahead : Ahead env initial log room executed) :
    Stored env initial log (room.storeCurrent env executed) ∧
      (room.storeCurrent env executed).current = room.current + 1 ∧
      ∃ counters snapshots observations publisher, room.storeCurrent env executed = { room with
        current := room.current + 1, counters, snapshots, observations, publisher } := by
  have number : executed.tick.number = room.current + 1 := by
    rw [ahead.tick]
    rfl
  obtain ⟨counters, snapshots, publisher, frame⟩ := room.storeCurrent_frame env executed
  rw [number] at frame
  rw [frame]
  refine ⟨⟨ahead.synced.start, ahead.synced.floor, ahead.synced.initialized, ahead.synced.history,
    fun time below => ahead.synced.accepted time below (Nat.succ_lt_succ below), ahead.live⟩, rfl,
    counters, snapshots, _, publisher, rfl⟩

theorem storeFinalized_idle (stored : Stored env initial log room) :
    Idle env initial log (room.storeFinalized room.current) ∧
      room.finalized ≤ (room.storeFinalized room.current).finalized ∧
      ∃ finalized finalizations counters history, room.storeFinalized room.current =
        { room with finalized, finalizations, counters, history } := by
  have floor := stored.floor
  obtain ⟨finalizations, counters, frame⟩ : ∃ finalizations counters,
      room.storeFinalized room.current = { room with
        finalized := room.current - room.config.rollbackWindowTicks
        finalizations, counters
        history := room.history.filter
          (fun tick _ => room.current - room.config.rollbackWindowTicks ≤ tick) } := by
    unfold storeFinalized
    simp only
    by_cases later : room.finalized < room.current - room.config.rollbackWindowTicks
    · simp only [later]
      exact ⟨_, _, rfl⟩
    · have same : room.current - room.config.rollbackWindowTicks = room.finalized := by omega
      simp only [same, lt_irrefl]
      exact ⟨room.finalizations, room.counters, rfl⟩
  have bound : room.finalized ≤ room.current - room.config.rollbackWindowTicks := by omega
  rw [frame]
  refine ⟨⟨stored.start, rfl, stored.live, ?_, fun _ => ⟨stored.start, rfl, stored.initialized,
    stored.history.trim bound, fun time below _ => stored.accepted time below⟩⟩, bound, _,
    finalizations, counters, _, rfl⟩
  intro uninitialized
  rw [show room.initialized = true from stored.initialized] at uninitialized
  cases uninitialized

/-- No command is rejected when the ticks from the earliest late one on are
executed with the late commands of the queue merged in. -/
def Replayable (env : Environment σ C Sn π) (initial : σ) (log : Nat → List (Command C))
    (room : Room σ C Sn π) : Prop :=
  ∀ first, room.drain.2 = some first → ∀ time, first ≤ time + 1 → time < room.current →
    Accepted env.simulation (logged room.drain.1.history log (time + 1))
      (stateAt env.simulation room.delta initial (logged room.drain.1.history log) time)

theorem replayable_iff {merged : Room σ C Sn π} {late : Option Nat}
    (idle : Idle env initial log room) (drained : (drainPhase env).call room = (.ok late, merged)) :
    room.Replayable env initial log ↔
      room.Replays env initial (logged merged.history log) late := by
  cases done : room.initialized with
  | false =>
    have zero := (idle.fresh done).2
    constructor
    all_goals
      intro _ first _ time _ below
      omega
  | true =>
    rw [drainPhase_initialized done] at drained
    cases drained
    rfl

structure Steady (before after : Room σ C Sn π) : Prop where
  config : after.config = before.config
  delta : after.delta = before.delta
  running : after.running = before.running

theorem Steady.trans {first second third : Room σ C Sn π} (early : Steady first second)
    (late : Steady second third) : Steady first third :=
  ⟨late.config.trans early.config, late.delta.trans early.delta, late.running.trans early.running⟩

include contract idle positive quiet in
/-- An advance without concurrent submissions takes an idle room to an idle room. -/
theorem advance_ok (stopped : room.running = false)
    (replayable : Replayable env initial log room) :
    ∃ after, advance env room = (.ok (), after) ∧
      Idle env initial (logged after.history log) after ∧ after.initialized = true ∧
      after.current = room.current + 1 ∧ after.queue = [] ∧ Steady room after := by
  obtain ⟨late, merged, drained, mergedState, outside, mergedFrame⟩ :=
    drainPhase_ok contract idle positive quiet
  obtain ⟨mergedSteady, mergedCurrent, mergedQueue⟩ :
      Steady room merged ∧ merged.current = room.current ∧ merged.queue = [] := by
    obtain ⟨_, _, _, _, _, rfl⟩ := mergedFrame
    exact ⟨⟨rfl, rfl, rfl⟩, rfl, rfl⟩
  have mergedReplayable : merged.Replays env initial (logged merged.history log) late := by
    unfold Replays
    rw [mergedCurrent, mergedSteady.delta]
    exact (replayable_iff idle drained).mp replayable
  obtain ⟨executed, commands, ahead, simulated, aheadState, _, aheadFrame⟩ :=
    simulatePhase_ok (mergedSteady.config ▸ contract) mergedState mergedReplayable
  obtain ⟨aheadSteady, aheadCurrent, aheadQueue⟩ :
      Steady merged ahead ∧ ahead.current = merged.current ∧ ahead.queue = merged.queue := by
    obtain ⟨_, _, _, _, _, _, rfl⟩ := aheadFrame
    exact ⟨⟨rfl, rfl, rfl⟩, rfl, rfl⟩
  have number : executed.tick.number = ahead.current + 1 := by
    rw [aheadState.tick]
    rfl
  obtain ⟨storedState, storedCurrent, storedFrame⟩ := storeCurrent_stored aheadState
  let stored := ahead.storeCurrent env executed
  obtain ⟨storedSteady, storedQueue⟩ : Steady ahead stored ∧ stored.queue = ahead.queue := by
    obtain ⟨_, _, _, _, frame⟩ := storedFrame
    simp only [stored, frame]
    exact ⟨⟨rfl, rfl, rfl⟩, trivial⟩
  obtain ⟨idleState, _, idleFrame⟩ := storeFinalized_idle storedState
  let after := stored.storeFinalized stored.current
  obtain ⟨idleSteady, idleCurrent, idleQueue, idleInitialized⟩ : Steady stored after ∧
      after.current = stored.current ∧ after.queue = stored.queue ∧
      after.initialized = stored.initialized := by
    obtain ⟨_, _, _, _, frame⟩ := idleFrame
    simp only [after, stored, frame]
    exact ⟨⟨rfl, rfl, rfl⟩, trivial, trivial, trivial⟩
  have steady := ((mergedSteady.trans aheadSteady).trans storedSteady).trans idleSteady
  have initialized : after.initialized = true := idleInitialized.trans storedState.initialized
  have current : after.current = room.current + 1 := by
    rw [idleCurrent]
    exact storedCurrent.trans (by rw [aheadCurrent, mergedCurrent])
  have sameLog : logged after.history log =
      update (logged merged.history log) (merged.current + 1) commands := by
    refine idleState.logged_eq initialized (fun time inside => ?_)
    have newFloor : after.finalized = after.current - after.config.rollbackWindowTicks :=
      idleState.floor
    rw [steady.config] at newFloor
    have oldFloor := idle.floor
    have unretained : ¬(after.finalized ≤ time ∧ time ≤ after.current) := inside
    rw [update_of_ne (by omega), outside time (by omega)]
  refine ⟨after, ?_, ?_, initialized, current, ?_, steady⟩
  · simp only [advance, stopped, Bool.false_eq_true, if_false, advanceInner, call_bind,
      drained, simulated, call_modify, number, failTick]
    rw [← storedCurrent]
  · rw [sameLog]
    exact idleState
  · rw [idleQueue, storedQueue, aheadQueue, mergedQueue]

include contract idle positive quiet in
theorem advance_error (refused : ¬Replayable env initial log room) :
    (advance env room).1 ≠ .ok () := by
  unfold advance
  split
  · exact nofun
  · obtain ⟨late, merged, drained, mergedState, _, mergedFrame⟩ :=
      drainPhase_ok contract idle positive quiet
    rw [replayable_iff idle drained] at refused
    obtain ⟨error, after, failed⟩ : ∃ error after,
        (simulatePhase env late).call merged = (.error error, after) := by
      obtain ⟨_, _, _, _, _, rfl⟩ := mergedFrame
      refine simulatePhase_error ?_ mergedState refused
      exact contract
    simp only [advanceInner, call_bind, drained, failed]
    exact nofun

end Phases

section Control

variable {σ C Sn π : Type} (env : Environment σ C Sn π) {property : Option π × Nat × Bool → Prop}

/-- What a tick leaves as it is until it stores its number, a forced keyframe apart. -/
def control (room : Room σ C Sn π) : Option π × Nat × Bool :=
  (room.publisher, room.current, room.running)

def Controlled (property : Option π × Nat × Bool → Prop) (room : Room σ C Sn π) : Prop :=
  property room.control

theorem Controlled.of_eq {room after : Room σ C Sn π} (held : Controlled property room)
    (same : after.control = room.control) : Controlled property after := by
  unfold Controlled
  rw [same]
  exact held

theorem control_observe (room : Room σ C Sn π) (call : Observation C Sn) :
    (room.observe call).control = room.control := by
  obtain ⟨counters, observed⟩ := observe_frame room call
  rw [observed]
  rfl

theorem control_drainQueue (inputs : List (Submitted C)) (room : Room σ C Sn π)
    (late : Option Nat) : (drainQueue inputs room late).1.control = room.control := by
  induction inputs generalizing room late with
  | nil => rfl
  | cons _ _ ih =>
    simp only [drainQueue, ih, receive]
    repeat' split
    all_goals rfl

theorem control_executeCommands (number limit : Nat) (room : Room σ C Sn π)
    (commands : List (Command C)) :
    (executeCommands env number limit room commands).1.control = room.control := by
  induction limit generalizing room commands with
  | zero => rfl
  | succ _ ih =>
    unfold executeCommands
    split
    · rfl
    · simp only
      split
      · rfl
      · split
        all_goals
          rw [ih]
          exact control_observe _ _

theorem preserves_simulate {α : Type} (method : σ → Except Error α × σ) :
    Preserves (Controlled property : Room σ C Sn π → Prop) (simulate method) := by
  intro room held
  rw [call_simulate]
  exact held

theorem preserves_capture (tick : Tick) : Preserves (Controlled property) (capture env tick) := by
  refine preserves_get_bind (fun room held => ?_)
  split
  · exact preserves_bind (preserves_set held) (fun _ => preserves_pure _)
  · exact preserves_bind (preserves_set held) (fun _ => preserves_throw _)

theorem preserves_initializeHistory :
    Preserves (Controlled property) (initializeHistory env) := by
  refine preserves_get_bind (fun room held => ?_)
  split
  · refine preserves_bind (preserves_capture env _) (fun value => ?_)
    exact preserves_modify (fun _ held => held)
  · exact preserves_pure _

theorem preserves_applyRecorded (commands : List (Command C)) :
    Preserves (Controlled property) (applyRecorded env commands) := by
  induction commands with
  | nil => exact preserves_pure _
  | cons _ _ ih => exact preserves_bind (preserves_simulate _) (fun _ => ih)

theorem preserves_resimulateTicks (numbers : List Nat) :
    Preserves (Controlled property) (resimulateTicks env numbers) := by
  induction numbers with
  | nil => exact preserves_pure _
  | cons _ _ ih =>
    refine preserves_get_bind (fun room held => ?_)
    split
    · exact preserves_throw _
    · refine preserves_bind (preserves_applyRecorded env _) (fun _ => ?_)
      refine preserves_bind (preserves_simulate _) (fun _ => ?_)
      refine preserves_bind (preserves_capture env _) (fun value => ?_)
      exact preserves_bind (preserves_modify (fun _ held => held)) (fun _ => ih)

theorem preserves_restoreCheckpoint (first : Nat) :
    Preserves (Controlled property) (restoreCheckpoint env first) := by
  refine preserves_get_bind (fun room held => ?_)
  dsimp only
  split
  · exact preserves_throw_bind _ _
  · split
    · exact preserves_throw _
    · refine preserves_bind (preserves_liftExcept _) (fun recorded => ?_)
      split
      · exact preserves_throw_bind _ _
      · split
        · exact preserves_bind (preserves_set held) (fun _ => preserves_throw _)
        · refine preserves_bind (preserves_set held) (fun _ => ?_)
          refine preserves_bind (preserves_liftExcept _) (fun verified => ?_)
          refine preserves_bind (preserves_liftExcept _) (fun bytes => ?_)
          split
          · exact preserves_throw _
          · exact preserves_pure _

theorem preserves_executeTick : Preserves (Controlled property) (executeTick env) := by
  refine preserves_get_bind (fun room held => ?_)
  simp only
  refine preserves_bind (preserves_set ?_) (fun _ => ?_)
  · exact held.of_eq (control_executeCommands env _ _ _ _)
  refine preserves_bind (preserves_simulate _) (fun _ => ?_)
  refine preserves_bind (preserves_modify (fun room held =>
    held.of_eq (control_observe room _))) (fun _ => ?_)
  refine preserves_bind (preserves_capture env _) (fun value => ?_)
  exact preserves_bind (preserves_modify (fun _ held => held)) (fun _ => preserves_pure _)

theorem preserves_drainPhase : Preserves (Controlled property) (drainPhase env) := by
  refine preserves_bind (preserves_initializeHistory env) (fun _ => ?_)
  refine preserves_get_bind (fun room held => ?_)
  refine preserves_bind (preserves_set ?_) (fun _ => preserves_pure _)
  exact held.of_eq (control_drainQueue _ _ _)

section Forced

variable (forced : ∀ publisher rest, property (publisher, rest) →
  property (publisher.map env.publisher.forceKeyframe, rest))
include forced

theorem preserves_resimulate (first through : Nat) :
    Preserves (Controlled property) (resimulate env first through) := by
  refine preserves_bind (preserves_restoreCheckpoint env first) (fun _ => ?_)
  refine preserves_bind (preserves_resimulateTicks env _) (fun _ => ?_)
  refine preserves_bind (preserves_modify (fun _ held => held)) (fun _ => ?_)
  refine preserves_bind (preserves_modify (fun room held => forced _ _ held)) (fun _ => ?_)
  exact preserves_modify (fun room held => held.of_eq (control_observe room _))

theorem preserves_resimulateLate (late : Option Nat) :
    Preserves (Controlled property) (resimulateLate env late) := by
  refine preserves_get_bind (fun room held => ?_)
  cases late with
  | none => exact preserves_pure _
  | some first => exact preserves_resimulate env forced first _

theorem preserves_simulatePhase (late : Option Nat) :
    Preserves (Controlled property) (simulatePhase env late) :=
  preserves_bind (preserves_resimulateLate env forced late) (fun _ => preserves_executeTick env)

end Forced

end Control

end Room

end Elura.Realtime
