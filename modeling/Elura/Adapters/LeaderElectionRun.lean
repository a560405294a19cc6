import Elura.Adapters.LeaderElection
import Elura.Basis.Runs
import Elura.Basis.Slots

/-!
Electors of one scope with the same timing, one clock and one API server: when at most one of them
has a runner that has not been told to stop.
-/

namespace Elura

open List Option

structure ElectionSetting where
  inNamespace : String
  regionId : UInt32
  realmId : UInt32
  leaseDuration : Duration
  renewDeadline : Duration
  retryPeriod : Duration
  deriving DecidableEq, Repr

def LeaderElectionConfig.setting (config : LeaderElectionConfig) : ElectionSetting where
  inNamespace := config.inNamespace
  regionId := config.regionId
  realmId := config.realmId
  leaseDuration := config.leaseDuration
  renewDeadline := config.renewDeadline
  retryPeriod := config.retryPeriod

structure Election where
  clock : Nat
  api : LeaseApi
  electors : List Elector

namespace Election

def initial (clock : Nat) (api : LeaseApi) : Election where
  clock := clock
  api := api
  electors := []

inductive Action
  | elapse (later : Nat)
  | start (config : LeaderElectionConfig)
  | elector (index : Nat) (action : Elector.Action)

section Steps

variable (setting : ElectionSetting)

def step (election : Election) : Action → Option Election
  | .elapse later =>
    if election.clock ≤ later ∧
        ∀ elector ∈ election.electors, ∀ due ∈ elector.due election.clock, later ≤ due then
      some { election with clock := later }
    else none
  | .start config =>
    if config.setting = setting then
      match config.validate with
      | .ok () =>
        some { election with electors := election.electors ++ [.start config election.clock] }
      | .error _ => none
    else none
  | .elector index action => do
      let elector ← election.electors[index]?
      let (api, after) ← elector.step election.clock election.api action
      some { election with api, electors := election.electors.set index after }

def Step (before : Election) (action : Action) (after : Election) : Prop :=
  step setting before action = some after

end Steps

def OwnIdentity (election : Election) : Action → Prop
  | .start config => ∀ elector ∈ election.electors,
      elector.hasReturned = false → elector.config.identity ≠ config.identity
  | _ => True

instance (election : Election) (action : Action) : Decidable (election.OwnIdentity action) :=
  match action with
  | .start _ => inferInstanceAs (Decidable (∀ _ ∈ _, _ → _))
  | .elapse _ | .elector _ _ => inferInstanceAs (Decidable True)

def OneLeader (election : Election) : Prop :=
  ∀ (left right : Nat) (one other : Elector), election.electors[left]? = some one →
    election.electors[right]? = some other → one.Active → other.Active → left = right

section Safety

variable {setting : ElectionSetting} {clock : Nat} {api : LeaseApi} {elector : Elector}
variable {config : LeaderElectionConfig} {lease : Lease} {after : LeaseApi} {next : Elector}

/-- How long after its last renewal an elector can go on: up to the first tick that finds the
renew deadline passed. -/
def patience (setting : ElectionSetting) : Nat :=
  (setting.renewDeadline + setting.retryPeriod - 1) / setting.retryPeriod * setting.retryPeriod

/-- That tick comes before the lease runs out, whose times are kept to the microsecond and
whose duration to the second. -/
def TicksInTime (setting : ElectionSetting) : Prop :=
  patience setting + 1000 ≤ Duration.ofSecs (max 1 setting.leaseDuration.asSecs)

def Holds (api : LeaseApi) (config : LeaderElectionConfig) (since : Nat) : Prop :=
  ∃ lease spec renewed, (api.history config.leaseName).getLast? = some lease ∧
    lease.spec = some spec ∧ spec.holderIdentity = some config.identity ∧
    spec.leaseDurationSeconds = some config.duration ∧ spec.renewTime = some renewed ∧
    since < renewed + 1000

def Paced (clock : Nat) (elector : Elector) : Prop :=
  match elector.stage with
  | .campaigning => elector.runner.isRunning = false ∧ clock ≤ elector.nextTick
  | .acquiring _ => elector.runner.isRunning = false ∧
      elector.nextTick = clock + elector.config.retryPeriod
  | .leading => clock ≤ elector.nextTick ∧ ∃ rounds,
      elector.nextTick = elector.lastRenewed + (rounds + 1) * elector.config.retryPeriod ∧
        rounds * elector.config.retryPeriod < elector.config.renewDeadline
  | .renewing _ => elector.nextTick = clock + elector.config.retryPeriod ∧
      clock ≤ elector.lastRenewed + patience elector.config.setting ∧ ∃ rounds,
        clock = elector.lastRenewed + rounds * elector.config.retryPeriod
  | .stopping _ | .releasing _ _ | .returned _ => ¬elector.Active

def Based (clock : Nat) (api : LeaseApi) (config : LeaderElectionConfig) (lease : Lease) : Prop :=
  VersionedStore.Drafted (fun _ _ => True) (fun _ base _ => base.holder = some config.identity ∨
    leaseExpired (base.spec.getD {}) config.duration clock = true) api config.leaseName lease.draft

def Claims (clock : Nat) (config : LeaderElectionConfig) (lease : Lease) : Prop :=
  ∃ spec, lease.spec = some spec ∧ spec.holderIdentity = some config.identity ∧
    spec.leaseDurationSeconds = some config.duration ∧ spec.renewTime = some clock

def Calls (clock : Nat) (api : LeaseApi) (elector : Elector) : Prop :=
  match elector.stage with
  | .acquiring (.reading asked) | .renewing (.reading asked) => asked = clock
  | .acquiring (.writing lease) | .renewing (.writing lease) =>
    Claims clock elector.config lease ∧ Based clock api elector.config lease
  | .releasing (.writing lease) _ => Based clock api elector.config lease
  | _ => True

structure Sound (setting : ElectionSetting) (clock : Nat) (api : LeaseApi) (elector : Elector) :
    Prop where
  shared : elector.config.setting = setting
  valid : elector.config.validate = .ok ()
  paced : Paced clock elector
  calls : Calls clock api elector
  holds : elector.Active → Holds api elector.config elector.lastRenewed

theorem rounds_le_patience {retry renew rounds : Nat} (positive : 0 < retry)
    (before : rounds * retry < renew) :
    (rounds + 1) * retry ≤ (renew + retry - 1) / retry * retry := by
  apply Nat.mul_le_mul_right
  rw [Nat.le_div_iff_mul_le positive, Nat.add_mul]
  omega

theorem valid_timing (valid : config.validate = .ok ()) :
    0 < config.retryPeriod ∧ config.retryPeriod < config.renewDeadline ∧
      config.leaseDuration.asSecs ≤ i32Max := by
  simp only [LeaderElectionConfig.validate] at valid
  split at valid
  · cases valid
  · split_ifs at valid with timing
    simp only [not_or, not_le, not_lt] at timing
    obtain ⟨positive, ordered, -, small⟩ := timing
    exact ⟨Nat.pos_of_ne_zero positive, ordered, small⟩

theorem Sound.within (sound : Sound setting clock api elector) (active : elector.Active) :
    clock ≤ elector.lastRenewed + patience setting := by
  obtain ⟨positive, -, -⟩ := valid_timing sound.valid
  have paced := sound.paced
  rw [← sound.shared]
  simp only [Paced] at paced
  split at paced
  · exact absurd (active.1.symm.trans paced.1) (by decide)
  · exact absurd (active.1.symm.trans paced.1) (by decide)
  · obtain ⟨waiting, rounds, due, before⟩ := paced
    have bound : (rounds + 1) * elector.config.retryPeriod ≤ patience elector.config.setting :=
      rounds_le_patience positive before
    omega
  · exact paced.2.1
  all_goals exact absurd active paced

theorem leaseName_eq {left right : LeaderElectionConfig} (same : left.setting = right.setting) :
    left.leaseName = right.leaseName := by
  simp only [LeaderElectionConfig.setting, ElectionSetting.mk.injEq] at same
  simp only [LeaderElectionConfig.leaseName, same]

/-- While an elector has a runner that has not been told to stop, no version but its own is
accepted. -/
theorem Sound.excludes (timely : TicksInTime setting) {other : Elector}
    (sound : Sound setting clock api elector) (active : elector.Active)
    (otherShared : other.config.setting = setting)
    (different : elector.config.identity ≠ other.config.identity)
    (based : Based clock api other.config lease) :
    ¬api.Accepts other.config.leaseName lease.draft := by
  intro accepted
  obtain ⟨own, spec, renewed, newest, isSpec, holder, duration, isRenewed, fresh⟩ :=
    sound.holds active
  have name : elector.config.leaseName = other.config.leaseName :=
    leaseName_eq (sound.shared.trans otherShared.symm)
  rw [name] at newest
  rcases based.newest accepted with ⟨absent, -⟩ | ⟨base, isBase, source⟩
  · rw [absent] at newest
    cases newest
  · cases newest.symm.trans isBase
    rcases source with mine | expired
    · simp only [Lease.holder, isSpec, bind_some, holder, some.injEq] at mine
      exact different mine
    · rw [isSpec, getD_some, leaseExpired, isRenewed] at expired
      have expired := of_decide_eq_true expired
      obtain ⟨-, -, small⟩ := valid_timing sound.valid
      have seconds : (max elector.config.duration 1).toNat =
          max 1 setting.leaseDuration.asSecs := by
        rw [LeaderElectionConfig.duration, asI32_of_le small, ← sound.shared]
        simp only [LeaderElectionConfig.setting]
        omega
      rw [duration, getD_some, seconds] at expired
      have within := sound.within active
      have timely : patience setting + 1000 ≤ _ := timely
      omega

theorem Holds.mono {early late : Nat} (holds : Holds api config late) (ordered : early ≤ late) :
    Holds api config early := by
  obtain ⟨lease, spec, renewed, newest, isSpec, holder, duration, isRenewed, fresh⟩ := holds
  exact ⟨lease, spec, renewed, newest, isSpec, holder, duration, isRenewed, by omega⟩

theorem Claims.holds (claims : Claims clock config lease)
    (committed : api.commit config.leaseName lease.draft = some after) :
    Holds after config clock := by
  obtain ⟨spec, isSpec, holder, duration, renewed⟩ := claims
  obtain ⟨-, rfl⟩ := VersionedStore.commit_eq_some committed
  refine ⟨lease.stored, spec.stored, microTime clock, ?_, ?_, holder, duration, ?_, ?_⟩
  · rw [VersionedStore.history_append, if_pos rfl, getLast?_concat, Lease.draft_value]
  · simp [Lease.stored, isSpec]
  · simp [LeaseSpec.stored, renewed]
  · simp only [microTime]
    omega

theorem claimLease_claims {found : Option Lease}
    (claimed : claimLease config clock found = some lease) : Claims clock config lease := by
  cases found with
  | none =>
    cases claimed
    exact ⟨_, rfl, rfl, rfl, rfl⟩
  | some =>
    simp only [claimLease] at claimed
    split at claimed
    · cases claimed
    · cases claimed
      refine ⟨_, rfl, ?_, rfl, rfl⟩
      split
      · assumption
      · rfl

theorem claimLease_based
    (claimed : claimLease config clock (api.getOpt config.leaseName) = some lease) :
    Based clock api config lease := by
  cases found : api.getOpt config.leaseName with
  | none =>
    rw [found] at claimed
    cases claimed
    trivial
  | some existing =>
    rw [found] at claimed
    obtain ⟨base, version, rfl, -, read⟩ := LeaseApi.getOpt_eq_some found
    simp only [claimLease] at claimed
    split at claimed
    · cases claimed
    · rename_i free
      cases claimed
      rw [Lease.holderIdentity_getD] at free
      refine ⟨base, read, or_iff_not_imp_left.mpr (fun foreign => ?_)⟩
      by_contra lasting
      exact free ⟨foreign, lasting⟩

theorem releasedLease_based {existing : Lease} {now : Nat}
    (found : api.getOpt config.leaseName = some existing)
    (released : releasedLease config.identity now existing = some lease) :
    Based clock api config lease := by
  obtain ⟨base, version, rfl, -, read⟩ := LeaseApi.getOpt_eq_some found
  simp only [releasedLease] at released
  split_ifs at released with own
  cases released
  rw [Lease.holderIdentity_getD] at own
  exact ⟨base, read, .inl own⟩

theorem writeResult_true {answer : Except KubeError Unit}
    (succeeded : writeResult answer = .ok true) : answer = .ok () := by
  cases answer with
  | ok => rfl
  | error =>
    simp only [writeResult] at succeeded
    split at succeeded <;> cases succeeded

theorem not_active_of_idle (idle : elector.runner.isRunning = false) : ¬elector.Active := by
  intro active
  exact absurd (active.1.symm.trans idle) (by decide)

section

variable (shared : elector.config.setting = setting) (valid : elector.config.validate = .ok ())
include shared valid

theorem leading_sound (due : elector.nextTick = clock + elector.config.retryPeriod)
    (held : Holds api elector.config clock) :
    Sound setting clock api { elector with stage := .leading, lastRenewed := clock } := by
  obtain ⟨positive, ordered, -⟩ := valid_timing valid
  refine ⟨shared, valid, ⟨?_, 0, ?_, ?_⟩, trivial, fun _ => held⟩
  · simp only [due]
    omega
  · simp [due]
  · simp only [Nat.zero_mul]
    exact positive.trans ordered

theorem acquired_sound {result : Except Error Bool} (idle : elector.runner.isRunning = false)
    (due : elector.nextTick = clock + elector.config.retryPeriod)
    (held : result = .ok true → Holds api elector.config clock) :
    Sound setting clock api (elector.acquired clock result) := by
  have campaigning : Sound setting clock api { elector with stage := .campaigning } :=
    ⟨shared, valid, ⟨idle, by simp only [due]; omega⟩, trivial,
      fun active => absurd active (not_active_of_idle idle)⟩
  rcases result with error | (_ | _)
  · exact campaigning
  · exact campaigning
  · exact @leading_sound _ _ _
      { elector with runner := .running, runnerShutdown := elector.shutdown } shared valid due
      (held rfl)

theorem lose_sound : Sound setting clock api elector.lose := by
  have stopped : ¬elector.lose.Active := fun active => absurd active.2 (by simp [Elector.lose])
  exact ⟨shared, valid, stopped, trivial, fun active => absurd active stopped⟩

theorem renewed_sound {result : Except Error Bool}
    (due : elector.nextTick = clock + elector.config.retryPeriod)
    (ticked : ∃ rounds, clock = elector.lastRenewed + rounds * elector.config.retryPeriod)
    (prior : elector.Active → Holds api elector.config elector.lastRenewed)
    (held : result = .ok true → Holds api elector.config clock) :
    Sound setting clock api (elector.renewed clock result) := by
  rcases result with error | (_ | _)
  · simp only [Elector.renewed]
    split
    · rename_i early
      obtain ⟨rounds, isClock⟩ := ticked
      refine ⟨shared, valid, ⟨?_, rounds, ?_, ?_⟩, trivial, prior⟩
      · simp only [due]
        omega
      · simp only [due, isClock, Nat.add_mul, Nat.one_mul, Nat.add_assoc]
      · rw [isClock, Nat.add_sub_cancel_left] at early
        exact early
    · exact lose_sound shared valid
  · exact lose_sound shared valid
  · exact leading_sound shared valid due (held rfl)

theorem returned_sound (stopped : ¬elector.Active)
    (result : Except LeadershipError Unit) :
    Sound setting clock api { elector with stage := .returned result } :=
  ⟨shared, valid, stopped, trivial, fun active => absurd active stopped⟩

theorem release_sound (stopped : ¬elector.Active)
    (result : Except LeadershipError Unit) :
    Sound setting clock api (elector.release clock result) := by
  simp only [Elector.release]
  split
  · exact ⟨shared, valid, stopped, trivial, fun active => absurd active stopped⟩
  · exact returned_sound shared valid stopped result

end

theorem intervalNext_due (period now : Nat) : intervalNext period now now = now + period := by
  simp [intervalNext]

theorem claim_ok {asked : Nat} {failure : Option KubeError}
    (claimed : elector.claim asked (elector.answer api failure) = .ok lease) :
    Claims asked elector.config lease ∧ Based asked api elector.config lease := by
  cases failure with
  | some => cases claimed
  | none =>
    simp only [Elector.claim, Elector.answer] at claimed
    split at claimed
    · rename_i prepared
      cases claimed
      exact ⟨claimLease_claims prepared, claimLease_based prepared⟩
    · cases claimed

theorem draft_cases (drafted : elector.draft = some lease) :
    elector.stage = .acquiring (.writing lease) ∨ elector.stage = .renewing (.writing lease) ∨
      ∃ result, elector.stage = .releasing (.writing lease) result := by
  simp only [Elector.draft] at drafted
  split at drafted <;> simp_all

theorem claim_ne_true {asked : Nat} {answer : Except KubeError (Option Lease)} :
    elector.claim asked answer ≠ .error (.ok true) := by
  intro claimed
  cases answer with
  | error => cases claimed
  | ok =>
    simp only [Elector.claim] at claimed
    split at claimed <;> cases claimed

section

variable (sound : Sound setting clock api elector)
include sound

theorem Sound.get {failure : Option KubeError}
    (got : elector.get clock api failure = some next) : Sound setting clock api next := by
  have paced := sound.paced
  have calls := sound.calls
  simp only [Elector.get] at got
  split at got
  · rename_i asked stage
    simp only [Paced, Calls, stage] at paced calls
    subst calls
    split at got
    · rename_i lease claimed
      cases got
      exact ⟨sound.shared, sound.valid, paced, claim_ok claimed, sound.holds⟩
    · rename_i result refused
      cases got
      apply acquired_sound sound.shared sound.valid paced.1 paced.2
      rintro rfl
      exact absurd refused claim_ne_true
  · rename_i asked stage
    simp only [Paced, Calls, stage] at paced calls
    subst calls
    split at got
    · rename_i lease claimed
      cases got
      exact ⟨sound.shared, sound.valid, paced, claim_ok claimed, sound.holds⟩
    · rename_i result refused
      cases got
      apply renewed_sound sound.shared sound.valid paced.1 paced.2.2 sound.holds
      rintro rfl
      exact absurd refused claim_ne_true
  · rename_i asked result stage
    simp only [Paced, stage] at paced
    have done : Sound setting clock api { elector with stage := .returned result } :=
      returned_sound sound.shared sound.valid paced result
    split at got
    · rename_i lease found
      split at got
      · rename_i released isReleased
        cases got
        refine ⟨sound.shared, sound.valid, paced, ?_, fun active => absurd active paced⟩
        cases failure with
        | some => cases found
        | none => exact releasedLease_based (Except.ok.inj found) isReleased
      · cases got
        exact done
    · cases got
      exact done
    · cases got
      exact done
  · cases got

theorem Sound.write {delivery : LeaseApi.Delivery}
    (drafted : elector.draft = some lease) :
    Sound setting clock (api.deliver elector.config.leaseName lease delivery).1
      (elector.wrote clock (api.deliver elector.config.leaseName lease delivery).2) := by
  have paced := sound.paced
  have calls := sound.calls
  have won : Claims clock elector.config lease →
      writeResult (api.deliver elector.config.leaseName lease delivery).2 = .ok true →
        Holds (api.deliver elector.config.leaseName lease delivery).1 elector.config clock :=
    fun claims succeeded => claims.holds (LeaseApi.deliver_ok (writeResult_true succeeded))
  rcases draft_cases drafted with stage | stage | ⟨result, stage⟩
  · simp only [Paced, Calls, Elector.wrote, stage] at paced calls ⊢
    exact acquired_sound sound.shared sound.valid paced.1 paced.2 (won calls.1)
  · simp only [Paced, Calls, Elector.wrote, stage] at paced calls ⊢
    obtain ⟨due, _, ticked⟩ := paced
    refine renewed_sound sound.shared sound.valid due ticked ?_ (won calls.1)
    intro active
    rcases api.deliver_cases elector.config.leaseName lease delivery with same | committed
    · rw [same]
      exact sound.holds active
    · obtain ⟨rounds, isClock⟩ := ticked
      exact (calls.1.holds committed).mono (by omega)
  · simp only [Paced, Elector.wrote, stage] at paced ⊢
    exact returned_sound sound.shared sound.valid paced result

theorem Sound.tick
    (taken : elector.step clock api .tick = some (after, next)) :
    Sound setting clock after next := by
  have paced := sound.paced
  simp only [Elector.step] at taken
  split_ifs at taken with arrived
  split at taken
  · rename_i stage
    simp only [Paced, stage] at paced
    have now : elector.nextTick = clock := Nat.le_antisymm arrived paced.2
    rw [now, intervalNext_due] at taken
    cases taken
    exact ⟨sound.shared, sound.valid, ⟨paced.1, rfl⟩, rfl, sound.holds⟩
  · rename_i stage
    simp only [Paced, stage] at paced
    obtain ⟨waited, rounds, due, before⟩ := paced
    have now : elector.nextTick = clock := Nat.le_antisymm arrived waited
    obtain ⟨positive, -, -⟩ := valid_timing sound.valid
    have bound : (rounds + 1) * elector.config.retryPeriod ≤ patience elector.config.setting :=
      rounds_le_patience positive before
    have within : clock ≤ elector.lastRenewed + patience elector.config.setting := by omega
    rw [now, intervalNext_due] at taken
    cases taken
    exact ⟨sound.shared, sound.valid, ⟨rfl, within, rounds + 1, now.symm.trans due⟩, rfl,
      sound.holds⟩
  · cases taken

theorem Sound.shutdownSeen
    (taken : elector.step clock api .shutdownSeen = some (after, next)) :
    Sound setting clock after next := by
  have paced := sound.paced
  simp only [Elector.step] at taken
  split_ifs at taken
  split at taken
  · rename_i stage
    cases taken
    simp only [Paced, stage] at paced
    exact returned_sound sound.shared sound.valid (not_active_of_idle paced.1) _
  · cases taken
    refine ⟨sound.shared, sound.valid, ?_, trivial, ?_⟩
    all_goals exact fun active => absurd active.2 (by simp)
  · cases taken

theorem Sound.runnerSeen {result : RunnerResult}
    (ended : elector.runner = .ended result) (seen : elector.runnerSeen clock result = some next) :
    Sound setting clock api next := by
  have stopped : ¬elector.Active := not_active_of_idle (by rw [ended]; rfl)
  simp only [Elector.runnerSeen] at seen
  split at seen <;> cases seen
  · exact release_sound sound.shared sound.valid stopped _
  · exact returned_sound sound.shared sound.valid stopped _
  · exact returned_sound sound.shared sound.valid stopped _
  · exact release_sound sound.shared sound.valid stopped _

theorem Sound.cancel :
    Sound setting clock api { elector with shutdown := true, runnerShutdown := true } := by
  have stopped :
      ¬({ elector with shutdown := true, runnerShutdown := true } : Elector).Active :=
    fun active => absurd active.2 (by simp)
  refine ⟨sound.shared, sound.valid, ?_, sound.calls, fun active => absurd active stopped⟩
  have paced := sound.paced
  simp only [Paced] at paced ⊢
  split at paced
  all_goals first | exact paced | exact stopped

theorem Sound.finish {result : RunnerResult} :
    Sound setting clock api { elector with runner := .ended result } := by
  have stopped : ¬({ elector with runner := .ended result } : Elector).Active :=
    fun active => absurd active.1 (by simp [Runner.isRunning])
  refine ⟨sound.shared, sound.valid, ?_, sound.calls, fun active => absurd active stopped⟩
  have paced := sound.paced
  simp only [Paced] at paced ⊢
  split at paced
  · exact ⟨rfl, paced.2⟩
  · exact ⟨rfl, paced.2⟩
  all_goals first | exact paced | exact stopped

theorem Sound.step {action : Elector.Action}
    (taken : elector.step clock api action = some (after, next)) :
    Sound setting clock after next := by
  cases action with
  | cancel =>
    cases taken
    exact sound.cancel
  | finish =>
    simp only [Elector.step] at taken
    split at taken <;> cases taken
    exact sound.finish
  | tick => exact sound.tick taken
  | shutdownSeen => exact sound.shutdownSeen taken
  | runnerSeen =>
    simp only [Elector.step] at taken
    split at taken
    · obtain ⟨later, seen, same⟩ := map_eq_some_iff.mp taken
      cases same
      exact sound.runnerSeen (by assumption) seen
    · cases taken
  | get =>
    obtain ⟨later, got, same⟩ := map_eq_some_iff.mp taken
    cases same
    exact sound.get got
  | write =>
    obtain ⟨lease, drafted, wrote⟩ := bind_eq_some_iff.mp taken
    cases wrote
    exact sound.write drafted

theorem Sound.based
    (drafted : elector.draft = some lease) : Based clock api elector.config lease := by
  have calls := sound.calls
  rcases draft_cases drafted with stage | stage | ⟨_, stage⟩ <;> simp only [Calls, stage] at calls
  · exact calls.2
  · exact calls.2
  · exact calls

end

theorem not_returned_of_draft (drafted : elector.draft = some lease) :
    elector.hasReturned = false := by
  rcases draft_cases drafted with stage | stage | ⟨_, stage⟩ <;> simp [Elector.hasReturned, stage]

theorem Sound.not_returned (sound : Sound setting clock api elector) (active : elector.Active) :
    elector.hasReturned = false := by
  have paced := sound.paced
  simp only [Paced] at paced
  simp only [Elector.hasReturned]
  split at paced
  all_goals rename_i stage
  all_goals first | exact absurd active paced | simp [stage]

theorem Calls.commit {name : String} {draft : Draft Lease} (calls : Calls clock api elector)
    (committed : api.commit name draft = some after) : Calls clock after elector := by
  simp only [Calls] at calls ⊢
  split at calls
  · exact calls
  · exact calls
  · exact ⟨calls.1, calls.2.commit committed⟩
  · exact ⟨calls.1, calls.2.commit committed⟩
  · exact VersionedStore.Drafted.commit calls committed
  · trivial

/-- What one elector writes does not unsettle another. -/
theorem Sound.other (timely : TicksInTime setting) {other : Elector} {action : Elector.Action}
    (sound : Sound setting clock api elector) (otherSound : Sound setting clock api other)
    (taken : elector.step clock api action = some (after, next))
    (different : elector.hasReturned = false → other.hasReturned = false →
      elector.config.identity ≠ other.config.identity) : Sound setting clock after other := by
  rcases (Elector.step_effect taken).2 with rfl | ⟨lease, drafted, committed⟩
  · exact otherSound
  · refine ⟨otherSound.shared, otherSound.valid, otherSound.paced,
      otherSound.calls.commit committed, ?_⟩
    intro active
    have foreign := different (not_returned_of_draft drafted) (otherSound.not_returned active)
    have accepted := (VersionedStore.commit_eq_some committed).1
    exact absurd accepted
      (otherSound.excludes timely active sound.shared foreign.symm (sound.based drafted))

theorem Sound.elapse {later : Nat} (sound : Sound setting clock api elector)
    (patient : ∀ due ∈ elector.due clock, later ≤ due) (forward : clock ≤ later) :
    Sound setting later api elector := by
  have paced := sound.paced
  have calls := sound.calls
  have still : elector.due clock = some clock → Sound setting later api elector := by
    intro busy
    rw [Nat.le_antisymm (patient clock busy) forward]
    exact sound
  have moved (pace : Paced later elector) (free : Calls later api elector) :
      Sound setting later api elector :=
    ⟨sound.shared, sound.valid, pace, free, sound.holds⟩
  simp only [Paced, Calls] at paced moved
  split at paced
  all_goals
    rename_i stage
    simp only [stage] at moved
  · exact moved ⟨paced.1, patient _ (by simp [Elector.due, stage])⟩ trivial
  · exact still (by simp [Elector.due, stage])
  · exact moved ⟨patient _ (by simp [Elector.due, stage]), paced.2⟩ trivial
  · exact still (by simp [Elector.due, stage])
  · exact moved paced trivial
  · exact still (by simp [Elector.due, stage])
  · exact moved paced trivial

structure Ordered (setting : ElectionSetting) (election : Election) : Prop where
  sound : ∀ elector ∈ election.electors, Sound setting election.clock election.api elector
  distinct : ∀ {left right : Nat} {one other : Elector}, election.electors[left]? = some one →
    election.electors[right]? = some other → one.hasReturned = false →
    other.hasReturned = false → one.config.identity = other.config.identity → left = right

theorem Ordered.oneLeader {election : Election} (ordered : Ordered setting election) :
    election.OneLeader := by
  intro left right one other oneFound otherFound oneActive otherActive
  have oneSound := ordered.sound one (mem_of_getElem? oneFound)
  have otherSound := ordered.sound other (mem_of_getElem? otherFound)
  apply ordered.distinct oneFound otherFound (oneSound.not_returned oneActive)
    (otherSound.not_returned otherActive)
  obtain ⟨lease, spec, _, newest, isSpec, holder, -⟩ := oneSound.holds oneActive
  obtain ⟨otherLease, otherSpec, _, otherNewest, otherIsSpec, otherHolder, -⟩ :=
    otherSound.holds otherActive
  rw [leaseName_eq (oneSound.shared.trans otherSound.shared.symm)] at newest
  cases newest.symm.trans otherNewest
  cases isSpec.symm.trans otherIsSpec
  exact some.inj (holder.symm.trans otherHolder)

theorem Step.ordered (timely : TicksInTime setting) {election after : Election} {action : Action}
    (own : election.OwnIdentity action) (taken : Step setting election action after)
    (ordered : Ordered setting election) : Ordered setting after := by
  cases action with
  | elapse later =>
    simp only [Step, Election.step] at taken
    split_ifs at taken with patient
    cases taken
    refine ⟨?_, ordered.distinct⟩
    intro elector listed
    exact (ordered.sound elector listed).elapse (patient.2 elector listed) patient.1
  | start config =>
    simp only [Step, Election.step] at taken
    split_ifs at taken with shared
    split at taken
    · rename_i valid
      cases taken
      have fresh : Sound setting election.clock election.api
          (.start config election.clock) :=
        ⟨shared, valid, ⟨rfl, le_rfl⟩, trivial, fun active => nomatch active.1⟩
      constructor
      · exact forall_mem_append.mpr ⟨ordered.sound, forall_mem_singleton.mpr fresh⟩
      · intro left right one other oneFound otherFound oneLive otherLive same
        rcases getElem?_concat_cases oneFound with oneOld | ⟨oneLast, rfl⟩
        · rcases getElem?_concat_cases otherFound with otherOld | ⟨_, rfl⟩
          · exact ordered.distinct oneOld otherOld oneLive otherLive same
          · exact absurd same (own one (mem_of_getElem? oneOld) oneLive)
        · rcases getElem?_concat_cases otherFound with otherOld | ⟨otherLast, rfl⟩
          · exact absurd same.symm (own other (mem_of_getElem? otherOld) otherLive)
          · exact oneLast.trans otherLast.symm
    · cases taken
  | elector index =>
    obtain ⟨elector, found, rest⟩ := bind_eq_some_iff.mp taken
    obtain ⟨⟨api, next⟩, moved, same⟩ := bind_eq_some_iff.mp rest
    cases same
    have sound := ordered.sound elector (mem_of_getElem? found)
    -- the elector that has moved still stands where it stood, under the same identity
    have place : ∀ {other : Nat} {entry : Elector},
        (election.electors.set index next)[other]? = some entry →
          entry.hasReturned = false → ∃ before, election.electors[other]? = some before ∧
            before.hasReturned = false ∧ before.config = entry.config := by
      intro other entry listed live
      rcases getElem?_set_cases listed with ⟨rfl, rfl⟩ | ⟨_, old⟩
      · refine ⟨elector, found, ?_, (Elector.step_effect moved).1.symm⟩
        cases returned : elector.hasReturned with
        | false => rfl
        | true => exact absurd (Elector.step_returned moved returned) (by rw [live]; decide)
      · exact ⟨entry, old, live, rfl⟩
    constructor
    · intro other listed
      obtain ⟨slot, isOther⟩ := mem_iff_getElem?.mp listed
      rcases getElem?_set_cases isOther with ⟨rfl, rfl⟩ | ⟨elsewhere, old⟩
      · exact sound.step moved
      · refine sound.other timely (ordered.sound other (mem_of_getElem? old)) moved ?_
        intro live otherLive same
        exact elsewhere (ordered.distinct found old live otherLive same)
    · intro left right one other oneFound otherFound oneLive otherLive same
      obtain ⟨oneBefore, oneOld, oneWas, oneConfig⟩ := place oneFound oneLive
      obtain ⟨otherBefore, otherOld, otherWas, otherConfig⟩ := place otherFound otherLive
      exact ordered.distinct oneOld otherOld oneWas otherWas (by rw [oneConfig, otherConfig, same])

/-- With identities of their own, and ticks that find the renew deadline passed before the lease
runs out, electors never have two runners that have not been told to stop. -/
theorem one_leader (timely : TicksInTime setting) {election : Election}
    (run : RunWhen OwnIdentity (Step setting) (initial clock api) election) :
    election.OneLeader := by
  have ordered : Ordered setting election :=
    run.invariant (fun _ _ _ own taken => taken.ordered timely own)
      ⟨fun _ listed => (nomatch listed), fun found => (nomatch found)⟩
  exact ordered.oneLeader

end Safety

def campaign : List Action :=
  [.start (.new "games" 1 1 "a"), .start (.new "games" 1 1 "b"), .elector 0 .tick,
    .elector 1 .tick, .elector 0 (.get none), .elector 1 (.get none),
    .elector 0 (.write .answered), .elector 1 (.write .answered), .elapse (Duration.ofSecs 2),
    .elector 0 .tick, .elector 0 (.get (some { code := none, text := "connection refused" })),
    .elector 1 .tick, .elector 1 (.get none)]

/-- Both electors find no lease, and one of them creates it; the defaults tick in time. -/
theorem default_electors : ∃ election,
    RunWhen OwnIdentity (Step (LeaderElectionConfig.new "games" 1 1 "a").setting)
      (initial 0 .empty) election ∧
    election.electors.map (fun elector => decide elector.Active) = [true, false] ∧
    election.OneLeader := by
  have followed : (follow OwnIdentity (step (LeaderElectionConfig.new "games" 1 1 "a").setting)
      (initial 0 .empty) campaign).any (fun election =>
        election.electors.map (fun elector => decide elector.Active) = [true, false]) = true := by
    decide +kernel
  obtain ⟨election, run, active⟩ := exists_run followed
  refine ⟨election, run, active, one_leader ?_ run⟩
  unfold TicksInTime
  decide

def slowRetry (identity : String) : LeaderElectionConfig :=
  { LeaderElectionConfig.new "games" 1 1 identity with
    renewDeadline := .ofSecs 14, retryPeriod := .ofSecs 13 }

/-- The server is away for the first elector's tick after 13 s; its next tick is after 26 s,
but the second elector finds the lease expired after 15 s. -/
def missedDeadline : List Action :=
  [.start (slowRetry "a"), .elector 0 .tick, .elector 0 (.get none), .elector 0 (.write .answered),
    .elapse (Duration.ofSecs 13), .elector 0 .tick,
    .elector 0 (.get (some { code := none, text := "connection refused" })),
    .elapse (Duration.ofSecs 15), .start (slowRetry "b"), .elector 1 .tick, .elector 1 (.get none),
    .elector 1 (.write .answered)]

/-- The renew deadline is only looked at when a tick fails, so the leader outlives its lease. -/
theorem two_leaders : ∃ election, RunWhen OwnIdentity (Step (slowRetry "a").setting)
    (initial 0 .empty) election ∧ ¬election.OneLeader := by
  have followed : (follow OwnIdentity (step (slowRetry "a").setting) (initial 0 .empty)
      missedDeadline).any (fun election =>
        election.electors.map (fun elector => decide elector.Active) = [true, true]) = true := by
    decide +kernel
  obtain ⟨election, run, active⟩ := exists_run followed
  refine ⟨election, run, fun unique => ?_⟩
  have first := congrArg (·[0]?) active
  have second := congrArg (·[1]?) active
  simp only [getElem?_map] at first second
  obtain ⟨one, oneFound, oneActive⟩ := map_eq_some_iff.mp first
  obtain ⟨other, otherFound, otherActive⟩ := map_eq_some_iff.mp second
  exact absurd (unique 0 1 one other oneFound otherFound (of_decide_eq_true oneActive)
    (of_decide_eq_true otherActive)) (by decide)

end Election

end Elura
