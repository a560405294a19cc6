import Mathlib.Logic.Relation

/-!
Runs of a labelled transition system whose steps are all allowed where they are taken, and what
every allowed step preserves along them.
-/

namespace Elura

variable {σ α : Type} {step : σ → α → σ → Prop} {allowed : σ → α → Prop}

def RunWhen (allowed : σ → α → Prop) (step : σ → α → σ → Prop) : σ → σ → Prop :=
  Relation.ReflTransGen (fun before after => ∃ action, allowed before action ∧
    step before action after)

namespace RunWhen

theorem refl (state : σ) : RunWhen allowed step state state :=
  Relation.ReflTransGen.refl

theorem take {first before after : σ} {action : α} (run : RunWhen allowed step first before)
    (taken : step before action after) (permitted : allowed before action) :
    RunWhen allowed step first after :=
  Relation.ReflTransGen.tail run ⟨action, permitted, taken⟩

theorem trans {first middle last : σ} (run : RunWhen allowed step first middle)
    (rest : RunWhen allowed step middle last) : RunWhen allowed step first last :=
  Relation.ReflTransGen.trans run rest

theorem mono {permitted : σ → α → Prop} (weaker : ∀ state action, allowed state action →
      permitted state action) {first last : σ} (run : RunWhen allowed step first last) :
    RunWhen permitted step first last := by
  induction run with
  | refl => exact refl _
  | tail _ next ih =>
    obtain ⟨action, known, taken⟩ := next
    exact ih.take taken (weaker _ action known)

@[elab_as_elim] theorem invariant {property : σ → Prop}
    (preserved : ∀ before action after, allowed before action → step before action after →
      property before → property after)
    {first last : σ} (run : RunWhen allowed step first last) (initial : property first) :
    property last := by
  induction run with
  | refl => exact initial
  | tail _ next ih =>
    obtain ⟨action, permitted, taken⟩ := next
    exact preserved _ action _ permitted taken ih

end RunWhen

structure EndlessRun (allowed : σ → α → Prop) (step : σ → α → σ → Prop) (first : σ) where
  state : Nat → σ
  action : Nat → α
  starts : state 0 = first
  permitted : ∀ time, allowed (state time) (action time)
  takes : ∀ time, step (state time) (action time) (state (time + 1))

namespace EndlessRun

variable {first : σ}

theorem between (run : EndlessRun allowed step first) {early late : Nat} (ordered : early ≤ late) :
    RunWhen allowed step (run.state early) (run.state late) := by
  induction ordered with
  | refl => exact .refl _
  | step _ ih => exact ih.take (run.takes _) (run.permitted _)

theorem reaches (run : EndlessRun allowed step first) (time : Nat) :
    RunWhen allowed step first (run.state time) := by
  have whole := run.between (Nat.zero_le time)
  rwa [run.starts] at whole

def walk (next : σ → α → Option σ) (plan : Nat → α) (first : σ) : Nat → σ
  | 0 => first
  | time + 1 => (next (walk next plan first time) (plan time)).getD (walk next plan first time)

def ofPlan {next : σ → α → Option σ} {plan : Nat → α}
    (possible : ∀ time, allowed (walk next plan first time) (plan time) ∧
      (next (walk next plan first time) (plan time)).isSome) :
    EndlessRun allowed (fun before action after => next before action = some after) first where
  state := walk next plan first
  action := plan
  starts := rfl
  permitted := fun time => (possible time).1
  takes := by
    intro time
    obtain ⟨after, taken⟩ := Option.isSome_iff_exists.mp (possible time).2
    rw [walk, taken]
    rfl

end EndlessRun

section Schedules

variable (allowed) (next : σ → α → Option σ)

def follow [∀ state action, Decidable (allowed state action)] : σ → List α → Option σ
  | state, [] => some state
  | state, action :: rest =>
    if allowed state action then (next state action).bind (fun after => follow after rest)
    else none

variable {allowed next} [∀ state action, Decidable (allowed state action)]

theorem run_of_follow {actions : List α} {first last : σ}
    (followed : follow allowed next first actions = some last) :
    RunWhen allowed (fun before action after => next before action = some after) first last := by
  induction actions generalizing first with
  | nil =>
    cases followed
    exact .refl _
  | cons action rest ih =>
    simp only [follow] at followed
    split at followed
    · rename_i permitted
      obtain ⟨after, taken, continued⟩ := Option.bind_eq_some_iff.mp followed
      exact ((RunWhen.refl first).take taken permitted).trans (ih continued)
    · cases followed

theorem exists_run {property : σ → Prop} [DecidablePred property] {actions : List α} {first : σ}
    (followed : (follow allowed next first actions).any (fun last => property last) = true) :
    ∃ last, RunWhen allowed (fun before action after => next before action = some after) first last ∧
      property last := by
  cases reached : follow allowed next first actions with
  | none =>
    rw [reached] at followed
    cases followed
  | some last =>
    rw [reached] at followed
    exact ⟨last, run_of_follow reached, of_decide_eq_true followed⟩

end Schedules

end Elura
