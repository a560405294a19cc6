import Elura.Adapters.KubernetesLease
import Elura.Basis.Rust

/-!
Leader election over one Kubernetes lease: an elector campaigns until it holds the lease, then
runs its task and renews the lease at every retry tick. Each API call is a step of its own.
-/

namespace Elura

open Option

inductive LeadershipError
  | invalidConfig (message : String)
  | kubernetes (error : Error)
  | lost
  | runner (error : Error)
  deriving DecidableEq, Repr

structure LeaderElectionConfig where
  inNamespace : String
  regionId : UInt32
  realmId : UInt32
  identity : String
  leaseDuration : Duration
  renewDeadline : Duration
  retryPeriod : Duration
  releaseOnCancel : Bool
  deriving DecidableEq, Repr

namespace LeaderElectionConfig

def new (inNamespace : String) (regionId realmId : UInt32) (identity : String) :
    LeaderElectionConfig where
  inNamespace := inNamespace
  regionId := regionId
  realmId := realmId
  identity := identity
  leaseDuration := .ofSecs 15
  renewDeadline := .ofSecs 10
  retryPeriod := .ofSecs 2
  releaseOnCancel := true

def validate (config : LeaderElectionConfig) : Except LeadershipError Unit := do
  if isBlank config.inNamespace ∨ config.regionId = 0 ∨ config.realmId = 0 ∨
      isBlank config.identity then
    throw (.invalidConfig "namespace, region, realm and identity are required")
  if config.retryPeriod = 0 ∨ config.retryPeriod ≥ config.renewDeadline ∨
      config.renewDeadline ≥ config.leaseDuration ∨ i32Max < config.leaseDuration.asSecs then
    throw (.invalidConfig "require retry period < renew deadline < lease duration")

def leaseName (config : LeaderElectionConfig) : String :=
  "elura-r" ++ toString config.regionId ++ "-realm" ++ toString config.realmId ++
    "-shard-coordinator"

/-- The seconds written into the lease: whole ones only. -/
def duration (config : LeaderElectionConfig) : Int :=
  asI32 config.leaseDuration.asSecs

end LeaderElectionConfig

def leaseExpired (spec : LeaseSpec) (duration : Int) (now : Nat) : Bool :=
  match spec.renewTime with
  | none => true
  | some renewed =>
    renewed + Duration.ofSecs (max (spec.leaseDurationSeconds.getD duration) 1).toNat ≤ now

/-- The lease `acquire_or_renew` writes, unless another elector holds one that has not run out. -/
def claimLease (config : LeaderElectionConfig) (now : Nat) : Option Lease → Option Lease
  | some lease =>
    let spec := lease.spec.getD {}
    let heldBySelf := spec.holderIdentity = some config.identity
    if ¬heldBySelf ∧ ¬leaseExpired spec config.duration now then none
    else
      let spec := if heldBySelf then spec else
        { spec with
          leaseTransitions := some (min (spec.leaseTransitions.getD 0 + 1) i32Max)
          holderIdentity := some config.identity
          acquireTime := some now }
      some { lease with spec := some { spec with
        leaseDurationSeconds := some config.duration, renewTime := some now } }
  | none => some {
      metadata := { name := some config.leaseName, inNamespace := some config.inNamespace }
      spec := some
        { holderIdentity := some config.identity
          leaseDurationSeconds := some config.duration
          acquireTime := some now
          renewTime := some now
          leaseTransitions := some 1 } }

def releasedLease (identity : String) (now : Nat) (lease : Lease) : Option Lease :=
  let spec := lease.spec.getD {}
  if spec.holderIdentity = some identity then
    some { lease with spec := some { spec with
      holderIdentity := some "", leaseDurationSeconds := some 1, renewTime := some now } }
  else none

def writeResult : Except KubeError Unit → Except Error Bool
  | .ok () => .ok true
  | .error error => if error.code = some 409 then .ok false else .error (kubeError error)

inductive LeaseCall
  | reading (now : Nat)
  | writing (lease : Lease)
  deriving DecidableEq, Repr

inductive RunnerResult
  | finished (result : Except Error Unit)
  | panicked (text : String)

def RunnerResult.toResult : RunnerResult → Except LeadershipError Unit
  | .finished (.ok ()) => .ok ()
  | .finished (.error error) => .error (.runner error)
  | .panicked text => .error (.runner (.internal text))

inductive Runner
  | absent
  | running
  | ended (result : RunnerResult)

def Runner.isRunning : Runner → Bool
  | .running => true
  | .absent | .ended _ => false

inductive ElectorStage
  | campaigning
  | acquiring (call : LeaseCall)
  | leading
  | renewing (call : LeaseCall)
  | stopping (lost : Bool)
  | releasing (call : LeaseCall) (result : Except LeadershipError Unit)
  | returned (result : Except LeadershipError Unit)

/-- `lastRenewed` is set when the runner starts. -/
structure Elector where
  config : LeaderElectionConfig
  shutdown : Bool
  runner : Runner
  runnerShutdown : Bool
  nextTick : Nat
  lastRenewed : Nat
  stage : ElectorStage

/-- When an interval that skips missed ticks is due next. -/
def intervalNext (period deadline now : Nat) : Nat :=
  if deadline + 5000000 < now then now + period - (now - deadline) % period
  else deadline + period

namespace Elector

def Active (elector : Elector) : Prop :=
  elector.runner.isRunning = true ∧ elector.runnerShutdown = false

instance (elector : Elector) : Decidable elector.Active :=
  inferInstanceAs (Decidable (_ ∧ _))

def hasReturned (elector : Elector) : Bool :=
  match elector.stage with
  | .returned _ => true
  | _ => false

def start (config : LeaderElectionConfig) (now : Nat) : Elector where
  config := config
  shutdown := false
  runner := .absent
  runnerShutdown := false
  nextTick := now
  lastRenewed := 0
  stage := .campaigning

def acquired (elector : Elector) (now : Nat) : Except Error Bool → Elector
  | .ok true =>
    { elector with
      stage := .leading
      runner := .running
      runnerShutdown := elector.shutdown
      lastRenewed := now }
  | .ok false | .error _ => { elector with stage := .campaigning }

def lose (elector : Elector) : Elector :=
  { elector with stage := .stopping true, runnerShutdown := true }

def renewed (elector : Elector) (now : Nat) : Except Error Bool → Elector
  | .ok true => { elector with stage := .leading, lastRenewed := now }
  | .ok false => elector.lose
  | .error _ =>
    if now - elector.lastRenewed < elector.config.renewDeadline then
      { elector with stage := .leading }
    else elector.lose

def release (elector : Elector) (now : Nat) (result : Except LeadershipError Unit) : Elector :=
  if elector.config.releaseOnCancel then { elector with stage := .releasing (.reading now) result }
  else { elector with stage := .returned result }

inductive Action
  | cancel
  | finish (result : RunnerResult)
  | tick
  | shutdownSeen
  | runnerSeen
  | get (failure : Option KubeError)
  | write (delivery : LeaseApi.Delivery)

def claim (elector : Elector) (now : Nat) :
    Except KubeError (Option Lease) → Except (Except Error Bool) Lease
  | .error error => .error (.error (kubeError error))
  | .ok found =>
    match claimLease elector.config now found with
    | some lease => .ok lease
    | none => .error (.ok false)

def answer (elector : Elector) (api : LeaseApi) :
    Option KubeError → Except KubeError (Option Lease)
  | some error => .error error
  | none => .ok (api.getOpt elector.config.leaseName)

def get (elector : Elector) (now : Nat) (api : LeaseApi) (failure : Option KubeError) :
    Option Elector :=
  match elector.stage with
  | .acquiring (.reading asked) =>
    match elector.claim asked (elector.answer api failure) with
    | .ok lease => some { elector with stage := .acquiring (.writing lease) }
    | .error result => some (elector.acquired now result)
  | .renewing (.reading asked) =>
    match elector.claim asked (elector.answer api failure) with
    | .ok lease => some { elector with stage := .renewing (.writing lease) }
    | .error result => some (elector.renewed now result)
  | .releasing (.reading _) result =>
    match elector.answer api failure with
    | .ok (some lease) =>
      match releasedLease elector.config.identity now lease with
      | some released => some { elector with stage := .releasing (.writing released) result }
      | none => some { elector with stage := .returned result }
    | .ok none | .error _ => some { elector with stage := .returned result }
  | _ => none

def draft (elector : Elector) : Option Lease :=
  match elector.stage with
  | .acquiring (.writing lease) => some lease
  | .renewing (.writing lease) => some lease
  | .releasing (.writing lease) _ => some lease
  | _ => none

def wrote (elector : Elector) (now : Nat) (answer : Except KubeError Unit) : Elector :=
  match elector.stage with
  | .acquiring _ => elector.acquired now (writeResult answer)
  | .renewing _ => elector.renewed now (writeResult answer)
  | .releasing _ result => { elector with stage := .returned result }
  | _ => elector

def runnerSeen (elector : Elector) (now : Nat) (result : RunnerResult) : Option Elector :=
  match elector.stage, result with
  | .leading, _ => some (elector.release now result.toResult)
  | .stopping true, _ => some { elector with stage := .returned (.error .lost) }
  | .stopping false, .panicked text =>
    some { elector with stage := .returned (.error (.runner (.internal text))) }
  | .stopping false, .finished _ => some (elector.release now result.toResult)
  | _, _ => none

def step (now : Nat) (api : LeaseApi) (elector : Elector) : Action → Option (LeaseApi × Elector)
  | .cancel => some (api, { elector with shutdown := true, runnerShutdown := true })
  | .finish result =>
    match elector.runner with
    | .running => some (api, { elector with runner := .ended result })
    | _ => none
  | .tick =>
    if elector.nextTick ≤ now then
      let due := intervalNext elector.config.retryPeriod elector.nextTick now
      match elector.stage with
      | .campaigning =>
        some (api, { elector with nextTick := due, stage := .acquiring (.reading now) })
      | .leading =>
        some (api, { elector with nextTick := due, stage := .renewing (.reading now) })
      | _ => none
    else none
  | .shutdownSeen =>
    if elector.shutdown then
      match elector.stage with
      | .campaigning => some (api, { elector with stage := .returned (.ok ()) })
      | .leading =>
        some (api, { elector with stage := .stopping false, runnerShutdown := true })
      | _ => none
    else none
  | .runnerSeen =>
    match elector.runner with
    | .ended result => (elector.runnerSeen now result).map (fun after => (api, after))
    | _ => none
  | .get failure => (elector.get now api failure).map (fun after => (api, after))
  | .write delivery => do
      let lease ← elector.draft
      let (after, answer) := api.deliver elector.config.leaseName lease delivery
      some (after, elector.wrote now answer)

/-- How long the clock may run before the elector does something: a tick is taken when it is
due, and a call to the server takes no time. -/
def due (now : Nat) (elector : Elector) : Option Nat :=
  match elector.stage with
  | .campaigning | .leading => some elector.nextTick
  | .acquiring _ | .renewing _ | .releasing _ _ => some now
  | .stopping _ | .returned _ => none

section Configuration

variable (elector : Elector) (now : Nat)

@[simp] theorem acquired_config (result : Except Error Bool) :
    (elector.acquired now result).config = elector.config := by
  rcases result with _ | (_ | _) <;> rfl

@[simp] theorem renewed_config (result : Except Error Bool) :
    (elector.renewed now result).config = elector.config := by
  rcases result with _ | (_ | _)
  · simp only [renewed]
    split <;> rfl
  · rfl
  · rfl

@[simp] theorem release_config (result : Except LeadershipError Unit) :
    (elector.release now result).config = elector.config := by
  simp only [release]
  split <;> rfl

@[simp] theorem wrote_config (answer : Except KubeError Unit) :
    (elector.wrote now answer).config = elector.config := by
  simp only [wrote]
  split <;> simp

end Configuration

variable {elector next : Elector} {now : Nat} {api after : LeaseApi} {action : Action}

theorem get_config {failure : Option KubeError} (got : elector.get now api failure = some next) :
    next.config = elector.config := by
  simp only [get] at got
  split at got
  · split at got <;> cases got <;> simp
  · split at got <;> cases got <;> simp
  · split at got
    · split at got <;> cases got <;> rfl
    · cases got
      rfl
    · cases got
      rfl
  · cases got

theorem runnerSeen_config {result : RunnerResult}
    (seen : elector.runnerSeen now result = some next) : next.config = elector.config := by
  simp only [runnerSeen] at seen
  split at seen <;> cases seen <;> simp

section

variable (taken : elector.step now api action = some (after, next))
include taken

theorem step_returned
    (returned : elector.hasReturned = true) : next.hasReturned = true := by
  have stage : ∃ result, elector.stage = .returned result := by
    simp only [hasReturned] at returned
    split at returned
    · exact ⟨_, by assumption⟩
    · cases returned
  obtain ⟨result, stage⟩ := stage
  cases action with
  | cancel =>
    cases taken
    exact returned
  | finish =>
    simp only [step] at taken
    split at taken <;> cases taken
    exact returned
  | tick | shutdownSeen =>
    simp only [step, stage] at taken
    split at taken <;> cases taken
  | runnerSeen =>
    simp only [step, runnerSeen, stage] at taken
    split at taken <;> cases taken
  | get =>
    simp only [step, get, stage] at taken
    cases taken
  | write =>
    simp only [step, draft, stage] at taken
    cases taken

theorem step_effect : next.config = elector.config ∧ (after = api ∨
    ∃ lease, elector.draft = some lease ∧
      api.commit elector.config.leaseName lease.draft = some after) := by
  cases action with
  | cancel =>
    cases taken
    exact ⟨rfl, .inl rfl⟩
  | finish =>
    simp only [step] at taken
    split at taken <;> cases taken
    exact ⟨rfl, .inl rfl⟩
  | tick | shutdownSeen =>
    simp only [step] at taken
    split_ifs at taken
    split at taken <;> cases taken <;> exact ⟨rfl, .inl rfl⟩
  | runnerSeen =>
    simp only [step] at taken
    split at taken
    · obtain ⟨later, seen, same⟩ := map_eq_some_iff.mp taken
      cases same
      exact ⟨runnerSeen_config seen, .inl rfl⟩
    · cases taken
  | get =>
    obtain ⟨later, got, same⟩ := map_eq_some_iff.mp taken
    cases same
    exact ⟨get_config got, .inl rfl⟩
  | write delivery =>
    obtain ⟨lease, drafted, wrote⟩ := bind_eq_some_iff.mp taken
    cases wrote
    refine ⟨wrote_config elector now _, ?_⟩
    rcases api.deliver_cases elector.config.leaseName lease delivery with same | committed
    · exact .inl same
    · exact .inr ⟨lease, drafted, committed⟩

end

end Elector

end Elura
