import Elura.Basis.OrderedMap
import Elura.Basis.Timeline
import Elura.Realtime.Room

/-!
What the phases of an advance do to the history. `Coherent` says that the history is a window of
the timeline of recorded commands, with correct checkpoints below `good`.
-/

namespace Elura.Realtime

open List hiding Vector

open Fallible

open Std (ExtTreeMap)
open OrderedMap (getElem?_insert_ite)

section Semantics

variable {σ C Sn π : Type}

def Accepts (env : Environment σ C Sn π) : Prop :=
  ∀ command state, (env.simulation.apply command state).1 = .ok ()

/-- The contract of a simulation in which only `apply` may fail: a rejected
command leaves the state unchanged, `restore` inverts `snapshot`, and the bytes of
a snapshot depend on the snapshot only and fit the room's limit. -/
structure Contract (env : Environment σ C Sn π) (limit : Nat) : Prop where
  step : ∀ tick state, (env.simulation.step tick state).1 = .ok ()
  snapshot : ∀ tick state, ∃ snapshot, env.simulation.snapshot tick state = .ok snapshot
  encode : ∀ snapshot state, ∃ bytes,
    env.simulation.encodeSnapshot snapshot state = .ok bytes ∧ bytes.length ≤ limit
  stable : ∀ snapshot state other,
    env.simulation.encodeSnapshot snapshot state = env.simulation.encodeSnapshot snapshot other
  restore : ∀ tick state other snapshot, env.simulation.snapshot tick state = .ok snapshot →
    env.simulation.restore tick snapshot other = (.ok (), state)
  rejected : ∀ command state error, (env.simulation.apply command state).1 = .error error →
    (env.simulation.apply command state).2 = state

def applyCommands (simulation : AuthoritativeSimulation σ C Sn) (commands : List (Command C))
    (state : σ) : σ :=
  commands.foldl (fun state command => (simulation.apply command state).2) state

def tickState (simulation : AuthoritativeSimulation σ C Sn) (delta number : Nat)
    (commands : List (Command C)) (state : σ) : σ :=
  (simulation.step (tickAt delta number) (applyCommands simulation commands state)).2

/-- The state after `time` ticks of a fresh simulation, without any rollback. -/
def stateAt (simulation : AuthoritativeSimulation σ C Sn) (delta : Nat) (initial : σ)
    (log : Nat → List (Command C)) (time : Nat) : σ :=
  timeline (tickState simulation delta) initial log time

def Accepted (simulation : AuthoritativeSimulation σ C Sn) : List (Command C) → σ → Prop
  | [], _ => True
  | command :: commands, state =>
    (simulation.apply command state).1 = .ok () ∧
      Accepted simulation commands (simulation.apply command state).2

instance instDecidableAccepted (simulation : AuthoritativeSimulation σ C Sn) :
    ∀ (commands : List (Command C)) (state : σ), Decidable (Accepted simulation commands state)
  | [], _ => isTrue trivial
  | command :: commands, state =>
    have : Decidable (Accepted simulation commands (simulation.apply command state).2) :=
      instDecidableAccepted simulation commands _
    inferInstanceAs (Decidable (_ ∧ _))

theorem accepted_of_ok {simulation : AuthoritativeSimulation σ C Sn}
    (never : ∀ command state, (simulation.apply command state).1 = .ok ())
    (commands : List (Command C)) (state : σ) : Accepted simulation commands state := by
  induction commands generalizing state with
  | nil => trivial
  | cons command _ ih => exact ⟨never command state, ih _⟩

structure Captures (env : Environment σ C Sn π) (tick : Tick) (state : σ) (snapshot : Sn)
    (hash : StateHash) : Prop where
  taken : env.simulation.snapshot tick state = .ok snapshot
  hashed : ∃ bytes, env.simulation.encodeSnapshot snapshot state = .ok bytes ∧
    hash = .digest env.sha256 bytes

structure Coherent (env : Environment σ C Sn π) (delta : Nat) (initial : σ)
    (log : Nat → List (Command C)) (history : ExtTreeMap Nat (TickRecord C Sn))
    (lower top good : Nat) : Prop where
  retained : ∀ time, lower ≤ time → time ≤ top → ∃ record, history[time]? = some record ∧
    record.commands = log time ∧ (time < good →
      Captures env (tickAt delta time) (stateAt env.simulation delta initial log time)
        record.snapshot record.hash)
  absent : ∀ time, ¬(lower ≤ time ∧ time ≤ top) → history[time]? = none

end Semantics

section Counter

def counterDigest (value : List UInt8) : Vector UInt8 32 :=
  if value = [0] then
    #v[110, 52, 11, 156, 255, 179, 122, 152, 156, 165, 68, 230, 187, 120, 10, 44,
       120, 144, 29, 63, 179, 55, 56, 118, 133, 17, 163, 6, 23, 175, 160, 29]
  else if value = [1] then
    #v[75, 245, 18, 47, 52, 69, 84, 197, 59, 222, 46, 187, 140, 210, 183, 227,
       209, 96, 10, 214, 49, 195, 133, 165, 215, 204, 226, 60, 119, 133, 69, 154]
  else if value = [2] then
    #v[219, 193, 180, 201, 0, 255, 228, 141, 87, 91, 93, 165, 198, 56, 4, 1,
       37, 246, 93, 176, 254, 62, 36, 73, 75, 118, 234, 152, 100, 87, 217, 134]
  else if value = [3] then
    #v[8, 79, 237, 8, 185, 120, 175, 77, 125, 25, 106, 116, 70, 168, 107, 88,
       0, 158, 99, 107, 97, 29, 177, 98, 17, 182, 90, 154, 173, 255, 41, 197]
  else .replicate 32 0

def counterSimulation (rejects : Nat → Bool) : AuthoritativeSimulation Nat Nat Nat where
  apply command state :=
    if rejects command.value then (.error .unavailable, state) else (.ok (), state + command.value)
  step _ state := (.ok (), state)
  snapshot _ state := .ok state
  encodeSnapshot snapshot _ := .ok [UInt8.ofNat snapshot]
  restore _ snapshot _ := (.ok (), snapshot)

def counterEnvironment (rejects : Nat → Bool) : Environment Nat Nat Nat Unit where
  simulation := counterSimulation rejects
  publisher := { publish := fun _ publisher => (.completed, publisher), forceKeyframe := id }
  sha256 := counterDigest

def accepting : Environment Nat Nat Nat Unit := counterEnvironment (fun _ => false)

def rejecting : Environment Nat Nat Nat Unit := counterEnvironment (fun value => value == 0)

def counterCommand (sequence value : Nat) : Command Nat :=
  { player := { regionId := 1, realmId := 1, userId := 1 }, sequence, value }

def counterRoom (config : RoomConfig) : Room Nat Nat Nat Unit := .fresh "counter" config 0 none

theorem counter_contract (rejects : Nat → Bool) {limit : Nat} (positive : 0 < limit) :
    Contract (counterEnvironment rejects) limit := by
  refine ⟨fun _ _ => rfl, fun _ state => ⟨state, rfl⟩, fun snapshot _ => ⟨_, rfl, positive⟩,
    fun _ _ _ => rfl, ?_, ?_⟩
  · intro tick state other snapshot taken
    cases taken
    rfl
  · intro command state error failed
    simp only [counterEnvironment, counterSimulation] at failed ⊢
    split at failed
    · rename_i rejected
      rw [if_pos rejected]
    · cases failed

end Counter

namespace Room

section Checkpoints

variable {σ C Sn π : Type} {env : Environment σ C Sn π}
variable {room : Room σ C Sn π} {first : Nat}
variable {state initial : σ} {record : TickRecord C Sn} {log : Nat → List (Command C)} {lower : Nat}

theorem encode_ok (room : Room σ C Sn π) (contract : Contract env room.config.maxSnapshotBytes)
    {snapshot : Sn} {bytes : List UInt8}
    (encoded : env.simulation.encodeSnapshot snapshot state = .ok bytes) :
    room.encode env snapshot = .ok bytes := by
  obtain ⟨other, computed, bound⟩ := contract.encode snapshot room.simulation
  rw [contract.stable snapshot room.simulation state, encoded, Except.ok.injEq] at computed
  subst other
  rw [encode, contract.stable snapshot room.simulation state, encoded]
  simp [bind, Except.bind, pure, Except.pure, Nat.not_lt.mpr bound]

theorem capture_ok (room : Room σ C Sn π) (contract : Contract env room.config.maxSnapshotBytes)
    (tick : Tick) :
    ∃ snapshot hash counters, Captures env tick room.simulation snapshot hash ∧
      (capture env tick).call room = (.ok (snapshot, hash), { room with counters }) := by
  obtain ⟨snapshot, taken⟩ := contract.snapshot tick room.simulation
  obtain ⟨bytes, encoded, _⟩ := contract.encode snapshot room.simulation
  have stored : room.captured env tick = .ok (snapshot, .digest env.sha256 bytes) := by
    rw [captured, taken]
    simp only [bind, Except.bind, encode_ok room contract encoded]
    rfl
  refine ⟨snapshot, .digest env.sha256 bytes,
    { room.counters with snapshots := room.counters.snapshots + 1 }, ⟨taken, bytes, encoded, rfl⟩, ?_⟩
  simp only [capture, call_bind, call_get, stored]
  rfl

theorem call_simulate {α : Type} (method : σ → Except Error α × σ) (room : Room σ C Sn π) :
    (simulate method).call room =
      ((method room.simulation).1, { room with simulation := (method room.simulation).2 }) := by
  simp [simulate, call_bind]

theorem restoreCheckpoint_ok (contract : Contract env room.config.maxSnapshotBytes)
    (positive : 0 < first) (found : room.history[first - 1]? = some record)
    (captures : Captures env (room.tick (first - 1)) state record.snapshot record.hash) :
    (restoreCheckpoint env first).call room = (.ok (), { room with simulation := state }) := by
  obtain ⟨taken, bytes, encoded, hashed⟩ := captures
  have nonzero : ¬first = 0 := by omega
  have restored := contract.restore _ _ room.simulation _ taken
  have recorded : room.encode env record.snapshot = .ok bytes := encode_ok room contract encoded
  have verified : Room.encode env { room with simulation := state } record.snapshot = .ok bytes :=
    encode_ok { room with simulation := state } contract encoded
  simp only [restoreCheckpoint, call_bind, call_get, nonzero, if_false,
    call_pure, found, call_liftExcept, recorded, hashed,
    ne_eq, not_true_eq_false, restored, call_set, taken, verified]

theorem applyRecorded_ok (commands : List (Command C)) (room : Room σ C Sn π)
    (accepted : Accepted env.simulation commands room.simulation) :
    (applyRecorded env commands).call room =
      (.ok (), { room with simulation := applyCommands env.simulation commands room.simulation }) := by
  induction commands generalizing room with
  | nil => rfl
  | cons _ _ ih =>
    obtain ⟨first, rest⟩ := accepted
    simp only [applyRecorded, call_bind, call_simulate, first]
    rw [ih _ rest]
    rfl

theorem applyRecorded_error (commands : List (Command C)) (room : Room σ C Sn π)
    (refused : ¬Accepted env.simulation commands room.simulation) :
    ∃ error after, (applyRecorded env commands).call room = (.error error, after) := by
  induction commands generalizing room with
  | nil => exact absurd trivial refused
  | cons command _ ih =>
    cases answer : (env.simulation.apply command room.simulation).1 with
    | error error =>
      refine ⟨error, { room with
        simulation := (env.simulation.apply command room.simulation).2 }, ?_⟩
      simp only [applyRecorded, call_bind, call_simulate, answer]
    | ok =>
      simp only [applyRecorded, call_bind, call_simulate, answer]
      exact ih _ (fun rest => refused ⟨answer, rest⟩)

theorem resimulateTicks_cons (initial : σ) (log : Nat → List (Command C)) (base : Nat)
    (numbers : List Nat) (room : Room σ C Sn π)
    (contract : Contract env room.config.maxSnapshotBytes)
    (live : room.simulation = stateAt env.simulation room.delta initial log base)
    (found : room.history[base + 1]? = some record) (commands : record.commands = log (base + 1))
    (accepted : Accepted env.simulation (log (base + 1))
      (stateAt env.simulation room.delta initial log base)) :
    ∃ snapshot hash counters,
      Captures env (tickAt room.delta (base + 1))
        (stateAt env.simulation room.delta initial log (base + 1)) snapshot hash ∧
      (resimulateTicks env ((base + 1) :: numbers)).call room =
        (resimulateTicks env numbers).call { room with
          simulation := stateAt env.simulation room.delta initial log (base + 1)
          history := room.history.insert (base + 1) { commands := log (base + 1), snapshot, hash }
          counters } := by
  have replayed := applyRecorded_ok (log (base + 1)) room (by rw [live]; exact accepted)
  have next : (env.simulation.step (tickAt room.delta (base + 1))
      (applyCommands env.simulation (log (base + 1)) room.simulation)).2 =
      stateAt env.simulation room.delta initial log (base + 1) := by
    rw [live]
    rfl
  obtain ⟨snapshot, hash, counters, captures, captured⟩ :=
    capture_ok { room with
      simulation := stateAt env.simulation room.delta initial log (base + 1) } contract
      (tickAt room.delta (base + 1))
  refine ⟨snapshot, hash, counters, captures, ?_⟩
  simp only [resimulateTicks, call_bind, call_get, found, commands, replayed,
    call_simulate, contract.step, tick, next, captured, call_modify]

section

variable (room initial log) (count base : Nat)
variable (contract : Contract env room.config.maxSnapshotBytes)
variable (live : room.simulation = stateAt env.simulation room.delta initial log base)
variable (recorded : ∀ time, base < time → time ≤ base + count →
  ∃ record, room.history[time]? = some record ∧ record.commands = log time)
include contract live recorded

/-- Re-simulation replays the recorded commands from the state of `base` on and
refreshes every checkpoint it passes. -/
theorem resimulateTicks_ok
    (accepted : ∀ time, base ≤ time → time < base + count → Accepted env.simulation
      (log (time + 1)) (stateAt env.simulation room.delta initial log time)) :
    ∃ history counters,
      (resimulateTicks env (List.range' (base + 1) count)).call room =
        (.ok (), { room with
          simulation := stateAt env.simulation room.delta initial log (base + count)
          history, counters }) ∧
      (∀ time, ¬(base < time ∧ time ≤ base + count) → history[time]? = room.history[time]?) ∧
      ∀ time, base < time → time ≤ base + count → ∃ record, history[time]? = some record ∧
        record.commands = log time ∧
        Captures env (tickAt room.delta time)
          (stateAt env.simulation room.delta initial log time) record.snapshot record.hash := by
  induction count generalizing room base with
  | zero =>
    refine ⟨room.history, room.counters, ?_, fun _ _ => rfl, fun time above below => by omega⟩
    simp only [Nat.add_zero, ← live]
    rfl
  | succ count ih =>
    obtain ⟨record, found, commands⟩ := recorded (base + 1) (by omega) (by omega)
    obtain ⟨snapshot, hash, counters, captures, stepped⟩ := resimulateTicks_cons initial log base
      (range' (base + 1 + 1) count) room contract live found commands
      (accepted base le_rfl (by omega))
    let fresh : TickRecord C Sn := { commands := log (base + 1), snapshot, hash }
    have lookup := fun time => getElem?_insert_ite room.history (base + 1) time fresh
    have later : ∀ time, base + 1 < time → time ≤ base + 1 + count → ∃ record,
        (room.history.insert (base + 1) fresh)[time]? = some record ∧
          record.commands = log time := by
      intro time above below
      rw [lookup, if_neg (by omega)]
      exact recorded time (by omega) (by omega)
    obtain ⟨history, finalCounters, computed, outside, inside⟩ :=
      ih { room with
        simulation := stateAt env.simulation room.delta initial log (base + 1)
        history := room.history.insert (base + 1) fresh
        counters } (base + 1) contract rfl later
        (fun time above below => accepted time (by omega) (by omega))
    refine ⟨history, finalCounters, ?_, ?_, ?_⟩
    · rw [range'_succ, stepped, computed, show base + 1 + count = base + (count + 1) by omega]
    · intro time away
      rw [outside time (by omega), lookup, if_neg (by omega)]
    · intro time above below
      by_cases here : time = base + 1
      · subst time
        refine ⟨fresh, ?_, rfl, captures⟩
        rw [outside (base + 1) (by omega), lookup, if_pos rfl]
      · exact inside time (by omega) (by omega)

theorem resimulateTicks_error
    (refused : ∃ time, base ≤ time ∧ time < base + count ∧ ¬Accepted env.simulation
      (log (time + 1)) (stateAt env.simulation room.delta initial log time)) :
    ∃ error after, (resimulateTicks env (List.range' (base + 1) count)).call room =
      (.error error, after) := by
  induction count generalizing room base with
  | zero =>
    obtain ⟨time, above, below, _⟩ := refused
    omega
  | succ count ih =>
    obtain ⟨record, found, commands⟩ := recorded (base + 1) (by omega) (by omega)
    rw [range'_succ]
    by_cases first : Accepted env.simulation (log (base + 1))
        (stateAt env.simulation room.delta initial log base)
    · obtain ⟨snapshot, hash, counters, _, stepped⟩ := resimulateTicks_cons initial log base
        (range' (base + 1 + 1) count) room contract live found commands first
      rw [stepped]
      refine ih _ (base + 1) contract rfl ?_ ?_
      · intro time above below
        simp only [getElem?_insert_ite]
        rw [if_neg (by omega)]
        exact recorded time (by omega) (by omega)
      · obtain ⟨time, above, below, rejected⟩ := refused
        refine ⟨time, ?_, by omega, rejected⟩
        by_contra early
        have here : time = base := by omega
        subst time
        exact rejected first
    · obtain ⟨error, after, failed⟩ := applyRecorded_error (log (base + 1)) room
        (by rw [live]; exact first)
      refine ⟨error, after, ?_⟩
      simp only [resimulateTicks, call_bind, call_get, found, commands, failed]

end

def noted (room : Room σ C Sn π) (calls : List (Observation C Sn)) : List (Observation C Sn) :=
  match room.observer with
  | none => room.observations
  | some _ => room.observations ++ calls

theorem noted_none (alone : room.observer = none) (calls : List (Observation C Sn)) :
    room.noted calls = room.observations := by
  simp only [noted, alone]

theorem noted_some {observer : List (Observation C Sn) → Except Error Unit}
    (observed : room.observer = some observer) (calls : List (Observation C Sn)) :
    room.noted calls = room.observations ++ calls := by
  simp only [noted, observed]

theorem noted_nil (room : Room σ C Sn π) : room.noted [] = room.observations := by
  rcases Option.eq_none_or_eq_some room.observer with alone | ⟨observer, observed⟩
  · rw [noted_none alone]
  · rw [noted_some observed, append_nil]

theorem noted_append {next : Room σ C Sn π} {earlier : List (Observation C Sn)}
    (same : next.observer = room.observer) (observations : next.observations = room.noted earlier)
    (later : List (Observation C Sn)) : next.noted later = room.noted (earlier ++ later) := by
  rcases Option.eq_none_or_eq_some room.observer with alone | ⟨observer, observed⟩
  · rw [noted_none (same.trans alone), observations, noted_none alone, noted_none alone]
  · rw [noted_some (same.trans observed), observations, noted_some observed, noted_some observed,
      append_assoc]

theorem observe_frame (room : Room σ C Sn π) (call : Observation C Sn) :
    ∃ counters, room.observe call =
      { room with observations := room.noted [call], counters } := by
  rcases Option.eq_none_or_eq_some room.observer with alone | ⟨observer, observed⟩
  · refine ⟨room.counters, ?_⟩
    rw [noted_none alone]
    change room.observe call = room
    simp only [observe, alone]
  · rw [noted_some observed]
    cases answer : observer (room.observations ++ [call]) with
    | ok =>
      refine ⟨room.counters, ?_⟩
      simp only [observe, observed, answer]
    | error =>
      refine ⟨{ room.counters with observerErrors := room.counters.observerErrors + 1 }, ?_⟩
      simp only [observe, observed, answer, count]

section

variable (contract : Contract env room.config.maxSnapshotBytes)
variable (coherent : Coherent env room.delta initial log room.history lower room.current first)
variable (above : lower < first) (below : first ≤ room.current)
include contract coherent above below

theorem restoreCheckpoint_coherent : ∃ base, first = base + 1 ∧
    (restoreCheckpoint env first).call room = (.ok (), { room with
      simulation := stateAt env.simulation room.delta initial log base }) ∧
    ∀ time, base < time → time ≤ base + (room.current + 1 - first) →
      ∃ record, room.history[time]? = some record ∧ record.commands = log time := by
  obtain ⟨base, rfl⟩ : ∃ base, first = base + 1 := ⟨first - 1, by omega⟩
  obtain ⟨checkpoint, found, _, captures⟩ := coherent.retained base (by omega) (by omega)
  refine ⟨base, rfl,
    restoreCheckpoint_ok contract (Nat.succ_pos base) found (captures (by omega)), ?_⟩
  intro time after before
  obtain ⟨record, existing, same, _⟩ := coherent.retained time (by omega) (by omega)
  exact ⟨record, existing, same⟩

theorem resimulate_ok
    (accepted : ∀ time, first ≤ time + 1 → time < room.current → Accepted env.simulation
      (log (time + 1)) (stateAt env.simulation room.delta initial log time)) :
    ∃ history counters publisher observations,
      (resimulate env first room.current).call room =
        (.ok (), { room with
          simulation := stateAt env.simulation room.delta initial log room.current
          history, counters, publisher, observations }) ∧
      Coherent env room.delta initial log history lower room.current (room.current + 1) := by
  obtain ⟨base, rfl, restored, recorded⟩ :=
    restoreCheckpoint_coherent contract coherent above below
  have through : base + (room.current + 1 - (base + 1)) = room.current := by omega
  obtain ⟨history, counters, computed, outside, inside⟩ :=
    resimulateTicks_ok
      { room with simulation := stateAt env.simulation room.delta initial log base } initial log
      (room.current + 1 - (base + 1)) base contract rfl recorded
      (fun time after before => accepted time (by omega) (by omega))
  rw [through] at computed outside inside
  obtain ⟨finalCounters, observed⟩ := observe_frame
    { room with
      simulation := stateAt env.simulation room.delta initial log room.current
      history
      counters := { counters with
        rollbacks := counters.rollbacks + 1
        resimulated := counters.resimulated + (room.current - (base + 1) + 1) }
      publisher := room.publisher.map env.publisher.forceKeyframe }
    (.rollback (base + 1) room.current)
  refine ⟨history, finalCounters, room.publisher.map env.publisher.forceKeyframe,
    room.noted [.rollback (base + 1) room.current], ?_, ?_, ?_⟩
  · simp only [resimulate, call_bind, restored, computed, call_modify, count]
    rw [observed]
    rfl
  · intro time after before
    by_cases replayed : base < time
    · obtain ⟨record, existing, same, correct⟩ := inside time replayed before
      exact ⟨record, existing, same, fun _ => correct⟩
    · obtain ⟨record, existing, same, correct⟩ := coherent.retained time after before
      refine ⟨record, ?_, same, fun _ => correct (by omega)⟩
      rw [outside time (by omega)]
      exact existing
  · intro time away
    rw [outside time (by omega)]
    exact coherent.absent time away

theorem resimulate_error
    (refused : ∃ time, first ≤ time + 1 ∧ time < room.current ∧ ¬Accepted env.simulation
      (log (time + 1)) (stateAt env.simulation room.delta initial log time)) :
    ∃ error after, (resimulate env first room.current).call room = (.error error, after) := by
  obtain ⟨base, rfl, restored, recorded⟩ :=
    restoreCheckpoint_coherent contract coherent above below
  obtain ⟨time, after, before, rejected⟩ := refused
  obtain ⟨error, final, failed⟩ := resimulateTicks_error
    { room with simulation := stateAt env.simulation room.delta initial log base } initial log
    (room.current + 1 - (base + 1)) base contract rfl recorded ⟨time, by omega, by omega, rejected⟩
  refine ⟨error, final, ?_⟩
  simp only [resimulate, call_bind, restored, failed]

end

end Checkpoints

section Execution

variable {σ C Sn π : Type} {env : Environment σ C Sn π}

def due (number : Nat) : Nat → List (Scheduled C) → List (Scheduled C)
  | 0, _ => []
  | _ + 1, [] => []
  | limit + 1, next :: rest => if number < next.target then [] else next :: due number limit rest

def commandCalls (number : Nat) (taken : List (Scheduled C)) : List (Observation C Sn) :=
  taken.map (fun next => .command number next.command)

theorem executeCommands_frame {limit : Nat} (contract : Contract env limit) (number fuel : Nat)
    (room : Room σ C Sn π) (commands : List (Command C)) :
    ∃ accepted counters,
      executeCommands env number fuel room commands =
        ({ room with
           simulation := applyCommands env.simulation accepted room.simulation
           pending := room.pending.drop (due number fuel room.pending).length
           observations := room.noted (commandCalls number (due number fuel room.pending))
           counters }, commands ++ accepted) ∧
      Accepted env.simulation accepted room.simulation ∧
      ((∀ command state, (env.simulation.apply command state).1 = .ok ()) →
        accepted = (due number fuel room.pending).map (·.command)) := by
  induction fuel generalizing room commands with
  | zero =>
    refine ⟨[], room.counters, ?_, trivial, fun _ => rfl⟩
    simp [executeCommands, due, commandCalls, noted_nil, applyCommands]
  | succ fuel ih =>
    unfold executeCommands
    cases waiting : room.pending with
    | nil =>
      refine ⟨[], room.counters, ?_, trivial, fun _ => rfl⟩
      simp only [due, commandCalls, map_nil, noted_nil, applyCommands, foldl_nil,
        append_nil, length_nil, drop_zero]
      rw [← waiting]
    | cons next rest =>
      by_cases future : number < next.target
      · refine ⟨[], room.counters, ?_, trivial, fun _ => by simp [due, future]⟩
        simp only [due, future, if_true, commandCalls, map_nil, noted_nil, applyCommands,
          foldl_nil, append_nil, length_nil, drop_zero]
        rw [← waiting]
      · obtain ⟨counters, observed⟩ := observe_frame
          { room with pending := rest } (.command number next.command)
        have calls : ∀ other : Room σ C Sn π, other.observer = room.observer →
            other.observations = room.noted [.command number next.command] →
            other.noted (commandCalls number (due number fuel rest)) =
              room.noted (commandCalls number (next :: due number fuel rest)) :=
          fun other observer observations => noted_append observer observations _
        simp only [future, if_false, observed, due]
        rcases outcome : env.simulation.apply next.command room.simulation with ⟨answer, state⟩
        cases answer with
        | ok =>
          let following : Room σ C Sn π := Room.count
            { room with
              simulation := state, pending := rest, counters
              observations := room.noted [.command number next.command] }
            (fun counters => { counters with applied := counters.applied + 1 })
          obtain ⟨accepted, final, computed, valid, all⟩ :=
            ih following (commands ++ [next.command])
          refine ⟨next.command :: accepted, final, ?_, ?_, fun never => ?_⟩
          · refine computed.trans ?_
            rw [← calls following rfl rfl]
            simp only [following, append_assoc, singleton_append, count,
              applyCommands, foldl_cons, outcome, length_cons, drop_succ_cons]
          · simp only [Accepted, outcome, true_and]
            exact valid
          · rw [all never]
            rfl
        | error error =>
          have unchanged : state = room.simulation := by
            have kept := contract.rejected next.command room.simulation error
              (by rw [outcome])
            rw [outcome] at kept
            exact kept
          subst state
          let following : Room σ C Sn π := Room.count
            { room with
              pending := rest, counters
              observations := room.noted [.command number next.command] }
            (fun counters => { counters with rejected := counters.rejected + 1 })
          obtain ⟨accepted, final, computed, valid, _⟩ := ih following commands
          refine ⟨accepted, final, ?_, valid, fun never => ?_⟩
          · refine computed.trans ?_
            rw [← calls following rfl rfl]
            simp [following, count]
          · have answered := never next.command room.simulation
            rw [outcome] at answered
            cases answered

theorem executeTick_ok (room : Room σ C Sn π)
    (contract : Contract env room.config.maxSnapshotBytes) :
    ∃ commands snapshot hash counters,
      (executeTick env).call room =
        (.ok { tick := room.tick (room.current + 1), snapshot, hash },
          { room with
            simulation := tickState env.simulation room.delta (room.current + 1) commands
              room.simulation
            history := room.history.insert (room.current + 1) { commands, snapshot, hash }
            pending := room.pending.drop
              (due (room.current + 1) room.config.maxCommandsPerTick room.pending).length
            observations := room.noted (commandCalls (room.current + 1)
              (due (room.current + 1) room.config.maxCommandsPerTick room.pending) ++
              [.tick (room.tick (room.current + 1))])
            counters }) ∧
      Accepted env.simulation commands room.simulation ∧
      Captures env (room.tick (room.current + 1))
        (tickState env.simulation room.delta (room.current + 1) commands room.simulation)
        snapshot hash ∧
      ((∀ command state, (env.simulation.apply command state).1 = .ok ()) → commands =
        (due (room.current + 1) room.config.maxCommandsPerTick room.pending).map (·.command)) := by
  let taken := due (room.current + 1) room.config.maxCommandsPerTick room.pending
  obtain ⟨commands, counters, executed, accepted, all⟩ :=
    executeCommands_frame contract (room.current + 1) room.config.maxCommandsPerTick room []
  rw [nil_append] at executed
  let stepped : Room σ C Sn π := { room with
    simulation := tickState env.simulation room.delta (room.current + 1) commands room.simulation
    pending := room.pending.drop taken.length
    observations := room.noted (commandCalls (room.current + 1) taken)
    counters }
  obtain ⟨tickCounters, observed⟩ :=
    observe_frame stepped (.tick (room.tick (room.current + 1)))
  have calls : stepped.noted [.tick (room.tick (room.current + 1))] =
      room.noted (commandCalls (room.current + 1) taken ++
        [.tick (room.tick (room.current + 1))]) := by
    refine noted_append ?_ ?_ _
    · rfl
    · rfl
  rw [calls] at observed
  obtain ⟨snapshot, hash, final, captures, captured⟩ :=
    capture_ok { stepped with
      observations := room.noted (commandCalls (room.current + 1) taken ++
        [.tick (room.tick (room.current + 1))])
      counters := tickCounters } contract (room.tick (room.current + 1))
  refine ⟨commands, snapshot, hash, final, ?_, accepted, captures, all⟩
  simp only [executeTick, call_bind, call_get, executed, call_set, call_simulate, contract.step,
    call_modify]
  have observedNow : Room.observe { room with
      simulation := (env.simulation.step (room.tick (room.current + 1))
        (applyCommands env.simulation commands room.simulation)).2
      pending := room.pending.drop taken.length
      observations := room.noted (commandCalls (room.current + 1) taken)
      counters } (.tick (room.tick (room.current + 1))) =
      { stepped with
        observations := room.noted (commandCalls (room.current + 1) taken ++
          [.tick (room.tick (room.current + 1))])
        counters := tickCounters } := observed
  simp only [taken] at observedNow captured
  simp only [observedNow, captured]
  rfl

variable (env) in
theorem storeCurrent_frame (room : Room σ C Sn π) (executed : Executed Sn) :
    ∃ counters snapshots publisher, room.storeCurrent env executed =
      { room with
        current := executed.tick.number
        observations :=
          if executed.tick.number % room.config.snapshotInterval = 0 then
            room.noted [.snapshot executed.tick executed.snapshot executed.hash]
          else room.observations
        counters, snapshots, publisher } := by
  have published : ∀ other : Room σ C Sn π, ∃ counters publisher,
      other.publish env executed = { other with counters, publisher } := by
    intro other
    unfold publish
    split
    · exact ⟨other.counters, other.publisher, rfl⟩
    · simp only
      split
      all_goals exact ⟨_, _, rfl⟩
  unfold storeCurrent
  by_cases captured : executed.tick.number % room.config.snapshotInterval = 0
  · simp only [count, captured]
    obtain ⟨called, observed⟩ := observe_frame
      { room with
        current := executed.tick.number
        counters := { room.counters with ticks := room.counters.ticks + 1 }
        snapshots := some executed.snapshot }
      (.snapshot executed.tick executed.snapshot executed.hash)
    obtain ⟨counters, publisher, computed⟩ := published
      { room with
        current := executed.tick.number
        counters := called
        snapshots := some executed.snapshot
        observations := room.noted [.snapshot executed.tick executed.snapshot executed.hash] }
    refine ⟨counters, some executed.snapshot, publisher, ?_⟩
    rw [observed]
    exact computed
  · simp only [count, captured]
    exact ⟨_, room.snapshots, room.publisher, rfl⟩

theorem initializeHistory_done {room : Room σ C Sn π} (done : room.initialized = true) :
    (initializeHistory env).call room = (.ok (), room) := by
  simp [initializeHistory, call_bind, done]

end Execution

section Draining

variable {σ C Sn π : Type}
variable {lower : Nat} {before room : Room σ C Sn π} {late : Option Nat} {input : Submitted C}
variable (inputs : List (Submitted C))

def Harmless (room : Room σ C Sn π) (lower : Nat) (input : Submitted C) : Prop :=
  lower < input.target ∨
    input.command.sequence ≤ (room.sequences input.command.player).getD 0 ∨
    ∀ record, room.history[input.target]? = some record →
      room.config.maxCommandsPerTick ≤ record.commands.length

instance (room : Room σ C Sn π) (lower : Nat) (input : Submitted C) :
    Decidable (room.Harmless lower input) :=
  decidable_of_iff (lower < input.target ∨
    input.command.sequence ≤ (room.sequences input.command.player).getD 0 ∨
    room.history[input.target]?.all
      (fun record => room.config.maxCommandsPerTick ≤ record.commands.length) = true)
    (by simp only [Harmless, Option.all_eq_true, decide_eq_true_eq])

def Quiet (lower : Nat) : List (Submitted C) → Room σ C Sn π → Prop
  | [], _ => True
  | input :: rest, room =>
    room.Harmless lower input ∧ Quiet lower rest (room.receive none input).1

instance instDecidableQuiet (lower : Nat) :
    ∀ (inputs : List (Submitted C)) (room : Room σ C Sn π), Decidable (Quiet lower inputs room)
  | [], _ => isTrue trivial
  | input :: rest, room =>
    have := instDecidableQuiet lower rest (room.receive none input).1
    inferInstanceAs (Decidable (_ ∧ _))

theorem quiet_of_targets (room : Room σ C Sn π)
    (later : ∀ input ∈ inputs, lower < input.target) : Quiet lower inputs room := by
  induction inputs generalizing room with
  | nil => trivial
  | cons input _ ih =>
    exact ⟨.inl (later input (by simp)), ih _ (fun other member => later other (by simp [member]))⟩

structure Drained (lower : Nat) (before : Room σ C Sn π) (late : Option Nat)
    (after : Room σ C Sn π) : Prop where
  frame : ∃ counters sequences order pending history,
    after = { before with counters, sequences, order, pending, history }
  bounds : ∀ first, late = some first → lower < first ∧ first ≤ before.current
  history : ∀ time, (before.history[time]? = none ∧ after.history[time]? = none) ∨
    ∃ record more, before.history[time]? = some record ∧
      after.history[time]? = some { record with commands := record.commands ++ more } ∧
      (more ≠ [] → ∃ first, late = some first ∧ first ≤ time ∧ time ≤ before.current)

theorem drained_refl (lower : Nat) (room : Room σ C Sn π) : Drained lower room none room := by
  refine ⟨⟨room.counters, room.sequences, room.order, room.pending, room.history, rfl⟩, ?_, ?_⟩
  · intro first found
    cases found
  intro time
  cases found : room.history[time]? with
  | none => exact .inl ⟨rfl, rfl⟩
  | some record => exact .inr ⟨record, [], rfl, by simp, fun changed => absurd rfl changed⟩

theorem Drained.keep {after : Room σ C Sn π} (drained : Drained lower before late room)
    (frame : ∃ counters sequences order pending,
      after = { room with counters, sequences, order, pending }) :
    Drained lower before late after := by
  obtain ⟨counters, sequences, order, pending, rfl⟩ := frame
  obtain ⟨_, _, _, _, history, rfl⟩ := drained.frame
  exact ⟨⟨counters, sequences, order, pending, history, rfl⟩, drained.bounds, drained.history⟩

theorem Drained.append {record : TickRecord C Sn} {counters : Counters}
    (drained : Drained lower before late room) (harmless : room.Harmless lower input)
    (newer : (room.sequences input.command.player).getD 0 < input.command.sequence)
    (past : input.target ≤ room.current) (found : room.history[input.target]? = some record)
    (space : record.commands.length < room.config.maxCommandsPerTick) :
    Drained lower before (some (late.elim input.target (min · input.target)))
      { room with
        counters
        sequences :=
          Function.update room.sequences input.command.player (some input.command.sequence)
        history := room.history.insert input.target
          { record with commands := record.commands ++ [input.command] } } := by
  have unsettled : lower < input.target := by
    rcases harmless with later | duplicate | full
    · exact later
    · omega
    · have long := full record found
      omega
  obtain ⟨_, _, order, pending, history, rfl⟩ := drained.frame
  refine ⟨⟨counters, _, order, pending, _, rfl⟩, ?_, ?_⟩
  · intro first chosen
    simp only [Option.some.injEq] at chosen
    subst first
    cases late with
    | none => exact ⟨unsettled, past⟩
    | some earlier =>
      have bounds := drained.bounds earlier rfl
      simp only [Option.elim_some]
      exact ⟨lt_min bounds.1 unsettled, le_trans (min_le_right _ _) past⟩
  · intro time
    have sooner : ∀ first, late = some first →
        late.elim input.target (min · input.target) ≤ first := by
      intro first chosen
      subst late
      exact min_le_left _ _
    have chosen : late.elim input.target (min · input.target) ≤ input.target := by
      cases late with
      | none => exact le_rfl
      | some => exact min_le_right _ _
    simp only [getElem?_insert_ite]
    by_cases here : input.target = time
    · subst time
      simp only [if_true]
      rcases drained.history input.target with ⟨_, absent⟩ | ⟨old, more, known, now, _⟩
      · rw [absent] at found
        cases found
      · rw [now, Option.some.injEq] at found
        subst record
        refine .inr ⟨old, more ++ [input.command], known, by simp, fun _ => ?_⟩
        exact ⟨_, rfl, chosen, past⟩
    · simp only [here]
      rcases drained.history time with absent | ⟨old, more, known, now, changed⟩
      · exact .inl absent
      · refine .inr ⟨old, more, known, now, fun nonempty => ?_⟩
        obtain ⟨first, found, before_, bound⟩ := changed nonempty
        exact ⟨_, rfl, le_trans (sooner first found) before_, bound⟩

theorem receive_late (late : Option Nat) {record : TickRecord C Sn}
    (newer : (room.sequences input.command.player).getD 0 < input.command.sequence)
    (past : input.target ≤ room.current) (found : room.history[input.target]? = some record)
    (space : record.commands.length < room.config.maxCommandsPerTick) :
    ∃ counters, room.receive late input =
      ({ room with
         counters
         sequences :=
           Function.update room.sequences input.command.player (some input.command.sequence)
         history := room.history.insert input.target
           { record with commands := record.commands ++ [input.command] } },
        some (late.elim input.target (min · input.target))) := by
  refine ⟨{ room.counters with
    received := room.counters.received + 1, late := room.counters.late + 1 }, ?_⟩
  simp only [receive, count, Nat.not_le.mpr newer, past, found, space, if_true, if_false]

theorem receive_cases (room : Room σ C Sn π) (late : Option Nat) (input : Submitted C) :
    (∃ counters, room.receive late input = ({ room with counters }, late)) ∨
    ((room.sequences input.command.player).getD 0 < input.command.sequence ∧
      ((input.target ≤ room.current ∧ ∃ record, room.history[input.target]? = some record ∧
          record.commands.length < room.config.maxCommandsPerTick) ∨
        (room.current < input.target ∧ room.pending.length < room.config.maxPendingCommands ∧
          ∃ counters, room.receive late input =
            ({ room with
               counters
               sequences :=
                 Function.update room.sequences input.command.player (some input.command.sequence)
               order := room.order + 1
               pending := room.pending.orderedInsert Scheduled.Before
                 { target := input.target, order := room.order + 1, command := input.command } },
              late)))) := by
  let received := { room.counters with received := room.counters.received + 1 }
  by_cases duplicate : input.command.sequence ≤ (room.sequences input.command.player).getD 0
  · refine .inl ⟨{ received with duplicates := received.duplicates + 1 }, ?_⟩
    simp only [receive, count, duplicate, if_true, received]
  · have newer := Nat.not_le.mp duplicate
    by_cases past : input.target ≤ room.current
    · let refused := { received with late := received.late + 1, rejected := received.rejected + 1 }
      cases found : room.history[input.target]? with
      | none =>
        refine .inl ⟨refused, ?_⟩
        simp only [receive, count, duplicate, past, found, if_true, if_false, refused, received]
      | some record =>
        by_cases space : record.commands.length < room.config.maxCommandsPerTick
        · exact .inr ⟨newer, .inl ⟨past, record, rfl, space⟩⟩
        · refine .inl ⟨refused, ?_⟩
          simp only [receive, count, duplicate, past, found, space, if_true, if_false, refused,
            received]
    · by_cases full : room.config.maxPendingCommands ≤ room.pending.length
      · refine .inl ⟨{ received with rejected := received.rejected + 1 }, ?_⟩
        simp only [receive, count, duplicate, past, full, if_true, if_false, received]
      · refine .inr ⟨newer, .inr ⟨Nat.not_le.mp past, Nat.not_le.mp full, received, ?_⟩⟩
        simp only [receive, count, duplicate, past, full, if_false, received]

theorem receive_room (room : Room σ C Sn π) (late : Option Nat) (input : Submitted C) :
    (room.receive late input).1 = (room.receive none input).1 := by
  unfold receive
  simp only
  repeat' split
  all_goals rfl

theorem drainQueue_room (room : Room σ C Sn π) (late : Option Nat) :
    (drainQueue inputs room late).1 = (drainQueue inputs room none).1 := by
  induction inputs generalizing room late with
  | nil => rfl
  | cons input _ ih =>
    simp only [drainQueue]
    rw [ih _ (room.receive late input).2, ih _ (room.receive none input).2, receive_room]

theorem receive_drained (drained : Drained lower before late room)
    (harmless : room.Harmless lower input) :
    Drained lower before (room.receive late input).2 (room.receive late input).1 := by
  rcases room.receive_cases late input with
    ⟨counters, same⟩ | ⟨newer, ⟨past, record, found, space⟩ | ⟨_, _, counters, queued⟩⟩
  · rw [same]
    exact drained.keep ⟨counters, room.sequences, room.order, room.pending, rfl⟩
  · obtain ⟨counters, changed⟩ := receive_late late newer past found space
    rw [changed]
    exact drained.append harmless newer past found space
  · rw [queued]
    exact drained.keep ⟨counters, _, _, _, rfl⟩

theorem drainQueue_drained (room : Room σ C Sn π) (late : Option Nat)
    (drained : Drained lower before late room) (quiet : Quiet lower inputs room) :
    Drained lower before (drainQueue inputs room late).2 (drainQueue inputs room late).1 := by
  induction inputs generalizing room late with
  | nil => exact drained
  | cons input _ ih =>
    refine ih (room.receive late input).1 (room.receive late input).2
      (receive_drained drained quiet.1) ?_
    rw [receive_room]
    exact quiet.2

/-- An input that is not harmless makes the list of a tick at or below `lower` longer. -/
theorem drainQueue_disturbs (room : Room σ C Sn π)
    (positive : ∀ input ∈ inputs, 0 < input.target) (bounded : lower ≤ room.current)
    (noisy : ¬Quiet lower inputs room) :
    ∃ time record longer, time ≤ lower ∧ room.history[time]? = some record ∧
      (drainQueue inputs room none).1.history[time]? = some longer ∧
      record.commands.length < longer.commands.length := by
  induction inputs generalizing room with
  | nil => exact absurd trivial noisy
  | cons input rest ih =>
    let next := (room.receive none input).1
    have later := fun other member => positive other (mem_cons_of_mem input member)
    have received : Drained 0 room (room.receive none input).2 next :=
      receive_drained (drained_refl 0 room) (.inl (positive input (by simp)))
    simp only [drainQueue]
    rw [drainQueue_room]
    by_cases harmless : room.Harmless lower input
    · have restBounded : lower ≤ next.current := by
        obtain ⟨_, _, _, _, _, frame⟩ := received.frame
        rw [frame]
        exact bounded
      obtain ⟨time, record, longer, below, found, final, grown⟩ :=
        ih next later restBounded (fun quiet => noisy ⟨harmless, quiet⟩)
      rcases received.history time with ⟨_, absent⟩ | ⟨old, more, known, now, _⟩
      · rw [absent] at found
        cases found
      · rw [now, Option.some.injEq] at found
        subst record
        simp only [length_append] at grown
        exact ⟨time, old, longer, below, known, final, by omega⟩
    · simp only [Harmless, not_or, not_forall, not_lt, not_le] at harmless
      obtain ⟨below, newer, record, found, space⟩ := harmless
      obtain ⟨counters, changed⟩ := receive_late none newer (le_trans below bounded) found space
      have appended : next.history[input.target]? =
          some { record with commands := record.commands ++ [input.command] } := by
        simp [next, changed]
      have drained := drainQueue_drained rest next none (drained_refl 0 next)
        (quiet_of_targets rest next later)
      rcases drained.history input.target with ⟨absent, _⟩ | ⟨old, more, known, now, _⟩
      · rw [absent] at appended
        cases appended
      · rw [known, Option.some.injEq] at appended
        subst old
        refine ⟨input.target, record, _, below, found, now, ?_⟩
        simp only [length_append, length_singleton]
        omega

end Draining

end Room

end Elura.Realtime
