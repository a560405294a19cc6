import Mathlib.Data.List.Basic

/-!
Draining a gateway. `wait_empty` reads the count of sessions, creates a future and reads the count
again before it sleeps, so that the last session to leave finds the future of everybody who
sleeps.
-/

namespace Elura

open List Option

/-- A call of `enter` with the session it makes, or the end of a call of `begin`. -/
inductive DrainCall
  | entering
  | adding
  | checking
  | active
  | leaving
  | notifying
  | gone
  deriving DecidableEq, Repr

/-- A call of `wait_empty`; `notified` says whether its future has been woken. -/
inductive DrainWaiter
  | looking
  | subscribing
  | rechecking (notified : Bool)
  | waiting (notified : Bool)
  | returned
  deriving DecidableEq, Repr

structure DrainController where
  draining : Bool
  active : Nat
  calls : List DrainCall
  waiters : List DrainWaiter
  deriving DecidableEq, Repr

/-- One atomic operation of a call, one notification, or the creation of a future. -/
inductive DrainAction
  | enter
  | turn (call : Nat)
  | begin
  | waitEmpty
  | poll (waiter : Nat)
  deriving DecidableEq, Repr

namespace DrainCall

def counted : DrainCall → Bool
  | checking | active | leaving => true
  | entering | adding | notifying | gone => false

def pending : DrainCall → Bool
  | adding | checking | active | leaving | notifying => true
  | entering | gone => false

end DrainCall

namespace DrainWaiter

def step (active : Nat) : DrainWaiter → Option DrainWaiter
  | looking => some (if active = 0 then returned else subscribing)
  | subscribing => some (rechecking false)
  | rechecking notified => some (if active = 0 then returned else waiting notified)
  | waiting true => some looking
  | waiting false => none
  | returned => none

def wake : DrainWaiter → DrainWaiter
  | rechecking _ => rechecking true
  | waiting _ => waiting true
  | waiter => waiter

/-- How many steps it can take before it returns or needs to be woken. -/
def rank : DrainWaiter → Nat
  | returned | waiting false => 0
  | rechecking false => 1
  | subscribing => 2
  | looking => 3
  | waiting true => 4
  | rechecking true => 5

variable {waiter next : DrainWaiter}

theorem rank_wake_le : waiter.wake.rank ≤ waiter.rank + 4 := by
  cases waiter with
  | looking | subscribing | returned => exact Nat.le_add_right _ _
  | rechecking notified | waiting notified => cases notified <;> decide

theorem wake_ne_asleep : waiter.wake ≠ waiting false := by
  cases waiter <;> simp [wake]

variable {active : Nat}

theorem step_rank (stepped : waiter.step active = some next) : next.rank < waiter.rank := by
  cases waiter with
  | looking =>
    cases stepped
    split <;> decide
  | subscribing =>
    cases stepped
    decide
  | rechecking notified =>
    cases stepped
    split <;> cases notified <;> decide
  | waiting notified => cases notified <;> cases stepped; decide
  | returned => cases stepped

theorem step_asleep (stepped : waiter.step active = some (waiting false)) : 0 < active := by
  by_contra none
  cases waiter with
  | rechecking | looking => simp [step, Nat.eq_zero_of_not_pos none] at stepped
  | subscribing | returned => simp [step] at stepped
  | waiting notified => cases notified <;> simp [step] at stepped

theorem step_returned (stepped : waiter.step active = some returned) : active = 0 := by
  by_contra some
  cases waiter with
  | looking | rechecking notified => simp [step, some] at stepped
  | subscribing | returned => simp [step] at stepped
  | waiting notified => cases notified <;> simp [step] at stepped

end DrainWaiter

namespace DrainController

def new : DrainController where
  draining := false
  active := 0
  calls := []
  waiters := []

def put (world : DrainController) (index : Nat) (call : DrainCall) : DrainController :=
  { world with calls := world.calls.set index call }

/-- The next operation of a call: of `enter`, of the drop of its session, or of `begin`. -/
def turn (world : DrainController) (index : Nat) : DrainCall → Option DrainController
  | .entering => some (world.put index (if world.draining then .gone else .adding))
  | .adding => some { world.put index .checking with active := world.active + 1 }
  | .checking => some (world.put index (if world.draining then .leaving else .active))
  | .active => some (world.put index .leaving)
  | .leaving => some { world.put index (if world.active = 1 then .notifying else .gone) with
      active := world.active - 1 }
  | .notifying => some { world.put index .gone with
      waiters := world.waiters.map DrainWaiter.wake }
  | .gone => none

def step (world : DrainController) : DrainAction → Option DrainController
  | .enter => some { world with calls := world.calls ++ [.entering] }
  | .turn index => world.calls[index]?.bind (world.turn index)
  | .begin => some { world with
      draining := true
      calls := world.calls ++ [.notifying] }
  -- callers wait only once they have begun to drain
  | .waitEmpty =>
    if world.draining then some { world with waiters := world.waiters ++ [.looking] } else none
  | .poll index => do
      let waiter ← world.waiters[index]?
      let next ← waiter.step world.active
      return { world with waiters := world.waiters.set index next }

def run (world : DrainController) (actions : List DrainAction) : Option DrainController :=
  actions.foldlM step world

variable {world after : DrainController} {action : DrainAction} {actions : List DrainAction}

theorem run_invariant {property : DrainController → Prop}
    (preserved : ∀ {before action after}, step before action = some after → property before →
      property after)
    (ran : world.run actions = some after) (initial : property world) : property after := by
  induction actions generalizing world with
  | nil =>
    cases ran
    exact initial
  | cons _ _ ih =>
    obtain ⟨middle, stepped, ran⟩ := bind_eq_some_iff.mp ran
    exact ih ran (preserved stepped initial)

/-- Everything a step can do. -/
theorem step_cases (stepped : world.step action = some after) :
    (action = .enter ∧ after = { world with calls := world.calls ++ [.entering] }) ∨
    (∃ index call, action = .turn index ∧ world.calls[index]? = some call ∧
      world.turn index call = some after) ∨
    (action = .begin ∧ after = { world with
      draining := true
      calls := world.calls ++ [.notifying] }) ∨
    (action = .waitEmpty ∧ world.draining = true ∧
      after = { world with waiters := world.waiters ++ [.looking] }) ∨
    ∃ index waiter next, action = .poll index ∧ world.waiters[index]? = some waiter ∧
      waiter.step world.active = some next ∧
      after = { world with waiters := world.waiters.set index next } := by
  cases action with
  | enter =>
    cases stepped
    exact .inl ⟨rfl, rfl⟩
  | turn index =>
    obtain ⟨call, found, turned⟩ := bind_eq_some_iff.mp stepped
    exact .inr (.inl ⟨index, call, rfl, found, turned⟩)
  | begin =>
    cases stepped
    exact .inr (.inr (.inl ⟨rfl, rfl⟩))
  | waitEmpty =>
    simp only [step] at stepped
    split at stepped
    · cases stepped
      exact .inr (.inr (.inr (.inl ⟨rfl, ‹_›, rfl⟩)))
    · cases stepped
  | poll index =>
    obtain ⟨waiter, found, polled⟩ := bind_eq_some_iff.mp stepped
    obtain ⟨next, moved, written⟩ := bind_eq_some_iff.mp polled
    cases written
    exact .inr (.inr (.inr (.inr ⟨index, waiter, next, rfl, found, moved, rfl⟩)))

theorem countP_set (test : DrainCall → Bool) {calls : List DrainCall} {index : Nat}
    {call : DrainCall} (found : calls[index]? = some call) (next : DrainCall) :
    (calls.set index next).countP test + (test call).toNat =
      calls.countP test + (test next).toNat := by
  induction calls generalizing index with
  | nil => cases found
  | cons _ rest ih =>
    cases index with
    | zero =>
      cases found
      simp only [set_cons_zero, countP_cons]
      cases test call <;> cases test next <;> simp
    | succ =>
      have rest := ih found
      simp only [set_cons_succ, countP_cons]
      omega

/-- Whoever sleeps will be woken: somebody is counted, or is about to notify. -/
structure Sound (world : DrainController) : Prop where
  counted : world.active = world.calls.countP DrainCall.counted
  awaited : .waiting false ∈ world.waiters → 0 < world.active ∨ .notifying ∈ world.calls
  draining : world.waiters ≠ [] → world.draining = true

namespace Sound

theorem new : Sound new where
  counted := rfl
  awaited := by simp [DrainController.new]
  draining := by simp [DrainController.new]

theorem turn (sound : Sound world) {index : Nat} {call : DrainCall}
    (found : world.calls[index]? = some call) (turned : world.turn index call = some after) :
    Sound after := by
  have total := sound.counted
  have counts := countP_set DrainCall.counted found
  have keeps (next : DrainCall) (other : call ≠ .notifying) (there : .notifying ∈ world.calls) :
      .notifying ∈ world.calls.set index next := by
    obtain ⟨place, held⟩ := List.mem_iff_getElem?.mp there
    refine List.mem_iff_getElem?.mpr ⟨place, ?_⟩
    rw [List.getElem?_set_ne, held]
    rintro rfl
    exact other (Option.some.inj (found.symm.trans held))
  have put (next : DrainCall) (other : call ≠ .notifying) (same : next.counted = call.counted) :
      Sound (world.put index next) := by
    have unchanged := counts next
    rw [same] at unchanged
    exact ⟨total.trans (Nat.add_right_cancel unchanged).symm,
      fun asleep => (sound.awaited asleep).imp_right (keeps next other), sound.draining⟩
  cases call with
  | gone => cases turned
  | entering | checking =>
    cases turned
    exact put _ (by decide) (by split <;> rfl)
  | adding =>
    cases turned
    have one := counts .checking
    refine ⟨?_, fun _ => .inl (Nat.succ_pos _), sound.draining⟩
    change world.active + 1 = _
    rw [total]
    exact one.symm
  | active =>
    cases turned
    exact put _ (by decide) rfl
  | leaving =>
    cases turned
    have one := counts (if world.active = 1 then .notifying else .gone)
    have uncounted : (if world.active = 1 then DrainCall.notifying else .gone).counted = false := by
      split <;> rfl
    rw [uncounted, ← total] at one
    refine ⟨?_, fun asleep => ?_, sound.draining⟩
    · change world.active - 1 = (world.calls.set index _).countP DrainCall.counted
      exact Nat.sub_eq_of_eq_add one.symm
    · by_cases last : world.active = 1
      · refine .inr ?_
        simp only [if_pos last]
        exact List.mem_set (List.getElem?_eq_some_iff.mp found).1 _
      · refine (sound.awaited asleep).imp (fun some => ?_) (keeps _ (by decide))
        change 0 < world.active - 1
        omega
  | notifying =>
    cases turned
    refine ⟨total.trans (counts .gone).symm, fun asleep => ?_, fun some => ?_⟩
    · obtain ⟨waiter, _, woken⟩ := List.mem_map.mp asleep
      exact absurd woken DrainWaiter.wake_ne_asleep
    · exact sound.draining (fun none => some (by simp [none]))

theorem step (sound : Sound world) (stepped : world.step action = some after) : Sound after := by
  obtain ⟨_, rfl⟩ | ⟨index, call, _, found, turned⟩ | ⟨_, rfl⟩ | ⟨_, draining, rfl⟩ |
    ⟨index, waiter, next, _, found, moved, rfl⟩ := step_cases stepped
  · refine ⟨?_, fun asleep => (sound.awaited asleep).imp_right (mem_append_left _),
      sound.draining⟩
    rw [countP_append, ← sound.counted]
    rfl
  · exact sound.turn found turned
  · refine ⟨?_, fun _ => .inr (by simp), fun _ => rfl⟩
    rw [countP_append, ← sound.counted]
    rfl
  · exact ⟨sound.counted, fun asleep => sound.awaited (by simpa using asleep), fun _ => draining⟩
  · refine ⟨sound.counted, fun asleep => ?_, fun some => sound.draining ?_⟩
    · obtain there | rfl := mem_or_eq_of_mem_set asleep
      · exact sound.awaited there
      · exact .inl (DrainWaiter.step_asleep moved)
    · rintro none
      exact some (by simp [none])

end Sound

theorem sound_of_run (ran : new.run actions = some world) : Sound world :=
  run_invariant (fun stepped sound => sound.step stepped) ran .new

/-- Once it drains, the controller admits no further session. -/
theorem step_closed (stepped : world.step action = some after)
    (closed : world.draining = true ∧ .active ∉ world.calls) :
    after.draining = true ∧ .active ∉ after.calls := by
  obtain ⟨draining, none⟩ := closed
  have kept (index : Nat) (next : DrainCall) (other : next ≠ .active) :
      .active ∉ world.calls.set index next := fun there =>
    (mem_or_eq_of_mem_set there).elim none (fun same => other same.symm)
  obtain ⟨_, rfl⟩ | ⟨index, call, _, found, turned⟩ | ⟨_, rfl⟩ | ⟨_, _, rfl⟩ |
    ⟨index, waiter, next, _, found, moved, rfl⟩ := step_cases stepped
  · exact ⟨draining, by simpa using none⟩
  · cases call with
    | active => exact absurd (mem_of_getElem? found) none
    | gone => cases turned
    | entering | adding | checking | notifying =>
      cases turned
      simp only [put, draining]
      exact ⟨trivial, kept _ _ (by decide)⟩
    | leaving =>
      cases turned
      refine ⟨draining, kept _ _ ?_⟩
      split <;> decide
  · exact ⟨rfl, by simpa using none⟩
  · exact ⟨draining, none⟩
  · exact ⟨draining, none⟩

/-- What a waiter has before it: its own steps, and those each call that may wake it gives it. -/
def work (world : DrainController) (index : Nat) : Nat :=
  5 * world.calls.countP DrainCall.pending + (world.waiters[index]?.map DrainWaiter.rank).getD 0

theorem turn_work {index place : Nat} {call : DrainCall} (found : world.calls[place]? = some call)
    (turned : world.turn place call = some after) (draining : world.draining = true) :
    after.work index ≤ world.work index := by
  have counts := countP_set DrainCall.pending found
  have fewer (next : DrainCall) (less : next.pending.toNat ≤ call.pending.toNat) :
      (world.put place next).work index ≤ world.work index := by
    have shift := counts next
    simp only [work, put]
    omega
  cases call with
  | gone => cases turned
  | entering =>
    cases turned
    rw [if_pos draining]
    exact fewer .gone (by decide)
  | adding =>
    cases turned
    exact fewer .checking (by decide)
  | checking =>
    cases turned
    rw [if_pos draining]
    exact fewer .leaving (by decide)
  | active =>
    cases turned
    exact fewer .leaving (by decide)
  | leaving =>
    cases turned
    refine fewer _ ?_
    split <;> decide
  | notifying =>
    cases turned
    have one := counts .gone
    have woken : ((world.waiters.map DrainWaiter.wake)[index]?.map DrainWaiter.rank).getD 0 ≤
        (world.waiters[index]?.map DrainWaiter.rank).getD 0 + 4 := by
      rw [getElem?_map]
      cases world.waiters[index]? with
      | none => exact Nat.zero_le _
      | some => exact DrainWaiter.rank_wake_le
    simp only [DrainCall.pending, Bool.toNat_true, Bool.toNat_false] at one
    simp only [work, put]
    omega

theorem step_work {index : Nat} (stepped : world.step action = some after)
    (draining : world.draining = true) (called : index < world.waiters.length) :
    after.work index + [action].count (.poll index) ≤
      world.work index + 5 * [action].count .begin := by
  obtain ⟨rfl, rfl⟩ | ⟨place, call, rfl, found, turned⟩ | ⟨rfl, rfl⟩ | ⟨rfl, _, rfl⟩ |
    ⟨place, waiter, next, rfl, found, moved, rfl⟩ := step_cases stepped
  · simp [work, DrainCall.pending]
  · simpa using turn_work found turned draining
  · simp [work, DrainCall.pending]
    omega
  · simp [work, List.getElem?_append_left called]
  · by_cases same : place = index
    · subst same
      have fewer := DrainWaiter.step_rank moved
      have read : world.waiters[place] = waiter := (List.getElem?_eq_some_iff.mp found).2
      simp [work, called, read]
      omega
    · simp [work, same]

theorem step_waiters (stepped : world.step action = some after) :
    world.waiters.length ≤ after.waiters.length := by
  obtain ⟨_, rfl⟩ | ⟨index, call, _, _, turned⟩ | ⟨_, rfl⟩ | ⟨_, _, rfl⟩ |
    ⟨index, waiter, next, _, _, _, rfl⟩ := step_cases stepped
  · exact Nat.le_refl _
  · cases call <;> cases turned <;> simp [put]
  · exact Nat.le_refl _
  · simp
  · simp

theorem run_work {index : Nat} (ran : world.run actions = some after) (sound : Sound world)
    (called : index < world.waiters.length) :
    after.work index + actions.count (.poll index) ≤
      world.work index + 5 * actions.count .begin := by
  induction actions generalizing world with
  | nil =>
    cases ran
    exact Nat.le_refl _
  | cons _ _ ih =>
    obtain ⟨middle, stepped, ran⟩ := bind_eq_some_iff.mp ran
    have draining := sound.draining (ne_nil_of_length_pos (Nat.zero_lt_of_lt called))
    have first := step_work stepped draining called
    have others := ih ran (sound.step stepped) (Nat.lt_of_lt_of_le called (step_waiters stepped))
    rw [count_singleton, count_singleton] at first
    rw [count_cons, count_cons]
    omega

/-- With nobody counted, a waiter that is not asleep returns by its own steps. -/
theorem polls_return {index : Nat} {waiter : DrainWaiter} (empty : world.active = 0)
    (found : world.waiters[index]? = some waiter) (awake : waiter ≠ .waiting false) :
    ∃ polls after, world.run (List.replicate polls (.poll index)) = some after ∧
      after.waiters[index]? = some .returned := by
  induction size : waiter.rank using Nat.strongRecOn generalizing world waiter with
  | _ rank ih =>
    cases moved : waiter.step 0 with
    | none =>
      refine ⟨0, world, rfl, ?_⟩
      cases waiter with
      | returned => exact found
      | looking | subscribing | rechecking notified => cases moved
      | waiting notified =>
        cases notified with
        | false => exact absurd rfl awake
        | true => cases moved
    | some next =>
      have lower := DrainWaiter.step_rank moved
      have upright : next ≠ .waiting false := by
        rintro rfl
        exact Nat.lt_irrefl 0 (DrainWaiter.step_asleep moved)
      have inside := (List.getElem?_eq_some_iff.mp found).1
      obtain ⟨polls, after, ran, returned⟩ := @ih next.rank (size ▸ lower)
        { world with waiters := world.waiters.set index next } next empty
        (List.getElem?_set_self inside) upright rfl
      refine ⟨polls + 1, after, ?_, returned⟩
      have first : world.step (.poll index) =
          some { world with waiters := world.waiters.set index next } := by
        simp [step, found, empty, moved]
      simp only [run, List.replicate_succ, List.foldlM_cons, first]
      exact ran

/-- However the calls are interleaved, whoever leaves has been counted; a waiter returns when no
session is left and none can come; its own steps are bounded by `work`, which only a further `begin`
raises; and it sleeps only while there is a call that will wake it. -/
theorem wait_empty_drains (ran : new.run actions = some world) :
    (∀ call ∈ world.calls, call.counted = true → 0 < world.active) ∧
    ∀ index waiter, world.waiters[index]? = some waiter →
      (waiter.step world.active = some .returned → ∀ later after,
        world.run later = some after → .active ∉ world.calls ∧ .active ∉ after.calls) ∧
      (∀ later after, world.run later = some after →
        later.count (.poll index) ≤ world.work index + 5 * later.count .begin) ∧
      (waiter = .returned ∨ (waiter.step world.active).isSome ∨
        ∃ call ∈ world.calls, call.pending = true) ∧
      ((∀ call ∈ world.calls, call.pending = false) → ∃ polls after,
        world.run (List.replicate polls (.poll index)) = some after ∧
          after.waiters[index]? = some .returned) := by
  have sound := sound_of_run ran
  have pending : .waiting false ∈ world.waiters → ∃ call ∈ world.calls, call.pending = true := by
    intro asleep
    obtain some | notifying := sound.awaited asleep
    · rw [sound.counted] at some
      obtain ⟨call, there, counted⟩ := List.countP_pos_iff.mp some
      refine ⟨call, there, ?_⟩
      cases call with
      | checking | active | leaving | adding | notifying => rfl
      | entering | gone => cases counted
    · exact ⟨_, notifying, rfl⟩
  refine ⟨fun call there counted => ?_, fun index waiter found => ⟨fun returns later after ran => ?_,
    fun later after ran => ?_, ?_, fun finished => ?_⟩⟩
  · rw [sound.counted]
    exact List.countP_pos_iff.mpr ⟨call, there, counted⟩
  · have empty := DrainWaiter.step_returned returns
    have gone : .active ∉ world.calls := by
      intro there
      have some : 0 < world.calls.countP DrainCall.counted :=
        List.countP_pos_iff.mpr ⟨_, there, rfl⟩
      rw [← sound.counted, empty] at some
      exact Nat.lt_irrefl 0 some
    have draining := sound.draining (List.ne_nil_of_mem (List.mem_of_getElem? found))
    exact ⟨gone, (run_invariant step_closed ran ⟨draining, gone⟩).2⟩
  · have spent := run_work ran sound (List.getElem?_eq_some_iff.mp found).1
    omega
  · cases waiter with
    | returned => exact .inl rfl
    | looking | subscribing | rechecking notified => exact .inr (.inl rfl)
    | waiting notified =>
      cases notified with
      | true => exact .inr (.inl rfl)
      | false => exact .inr (.inr (pending (List.mem_of_getElem? found)))
  · have empty : world.active = 0 := by
      rw [sound.counted, List.countP_eq_zero]
      intro call there counted
      have idle := finished call there
      cases call with
      | checking | active | leaving | adding | notifying => cases idle
      | entering | gone => cases counted
    refine polls_return empty found ?_
    rintro rfl
    obtain ⟨call, there, busy⟩ := pending (List.mem_of_getElem? found)
    exact Bool.noConfusion (busy.symm.trans (finished call there))

def drained : List DrainAction :=
  [.enter, .turn 0, .turn 0, .turn 0, .begin, .turn 1, .waitEmpty, .poll 0, .poll 0, .poll 0,
    .turn 0, .turn 0, .turn 0]

theorem wait_empty_drains_session :
    ∃ world, new.run drained = some world ∧ ∃ polls after,
      world.run (List.replicate polls (.poll 0)) = some after ∧
        after.waiters[0]? = some .returned := by
  refine ⟨⟨true, 0, [.gone, .gone], [.waiting true]⟩, by decide, ?_⟩
  have run : new.run drained = some ⟨true, 0, [.gone, .gone], [.waiting true]⟩ := by decide
  exact ((wait_empty_drains run).2 0 _ rfl).2.2.2 (by decide)

end DrainController

end Elura
