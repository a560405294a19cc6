import Elura.Adapters.Ownership
import Elura.Basis.Runs

/-!
Any number of coordinators of one scope that reconcile the same leases. Reads and writes
interleave, calls fail and answers get lost; an observer may read any version of a lease.
-/

namespace Elura

open List Option

inductive ReconcilePhase
  | reading (shardId : UInt32) (worldId : String) (now : Nat)
  | writing (shardId : UInt32) (lease : Lease)
  | returned (result : Except Error Unit)
  | dropped

structure ReconcileCall where
  config : OwnershipCoordinatorConfig
  worldIds : List String
  phase : ReconcilePhase

namespace ReconcileCall

def name (call : ReconcileCall) (shardId : UInt32) : String :=
  leaseName call.config.regionId call.config.realmId shardId

def enter (call : ReconcileCall) (shardId : UInt32) (now : Nat) : ReconcilePhase :=
  match preferredWorld shardId call.worldIds with
  | .ok worldId => .reading shardId worldId now
  | .error error => .returned (.error error)

def next (call : ReconcileCall) (shardId : UInt32) (now : Nat) : ReconcilePhase :=
  if shardId + 1 < call.config.shardCount then call.enter (shardId + 1) now
  else .returned (.ok ())

def start (coordinator : OwnershipCoordinator) (now : Nat) : ReconcileCall :=
  let call : ReconcileCall :=
    { config := coordinator.config, worldIds := coordinator.worldIds, phase := .dropped }
  { call with
    phase := if call.worldIds = [] ∨ call.config.shardCount = 0 then .returned (.ok ())
      else call.enter 0 now }

def read (call : ReconcileCall) (shardId : UInt32) (worldId : String) (now : Nat)
    (answer : Except KubeError (Option Lease)) : ReconcilePhase :=
  match answer with
  | .error error => .returned (.error (kubeError error))
  | .ok existing =>
    match reconciledLease call.config shardId worldId now existing with
    | .error error => .returned (.error error)
    | .ok lease => .writing shardId lease

def wrote (call : ReconcileCall) (shardId : UInt32) (now : Nat) :
    Except KubeError Unit → ReconcilePhase
  | .error error => .returned (.error (kubeError error))
  | .ok () => call.next shardId now

end ReconcileCall

structure OwnershipSystem where
  leases : LeaseApi
  coordinators : List OwnershipCoordinator
  calls : List ReconcileCall

namespace OwnershipSystem

def initial : OwnershipSystem where
  leases := .empty
  coordinators := []
  calls := []

inductive Action
  | create (config : OwnershipCoordinatorConfig)
  | updateWorlds (coordinator : Nat) (targets : List String)
  | reconcile (coordinator : Nat) (now : Nat)
  | get (call : Nat) (failure : Option KubeError)
  | write (call : Nat) (delivery : LeaseApi.Delivery) (now : Nat)
  | drop (call : Nat)

def proceed (system : OwnershipSystem) (index : Nat) (call : ReconcileCall)
    (phase : ReconcilePhase) : OwnershipSystem :=
  { system with calls := system.calls.set index { call with phase } }

section Steps

variable (regionId realmId : UInt32)

/-- The clocks of the coordinators are the arguments of the actions that read them. -/
def step (system : OwnershipSystem) : Action → Option OwnershipSystem
  | .create config =>
    if config.regionId = regionId ∧ config.realmId = realmId then
      match OwnershipCoordinator.new config with
      | .error _ => none
      | .ok coordinator =>
        some { system with coordinators := system.coordinators ++ [coordinator] }
    else none
  | .updateWorlds index targets => do
      let coordinator ← system.coordinators[index]?
      match coordinator.updateWorlds targets with
      | .error _ => some system
      | .ok updated => some { system with coordinators := system.coordinators.set index updated }
  | .reconcile index now => do
      let coordinator ← system.coordinators[index]?
      some { system with calls := system.calls ++ [.start coordinator now] }
  | .get index failure => do
      let call ← system.calls[index]?
      match call.phase with
      | .reading shardId worldId now =>
        let answer := match failure with
          | some error => .error error
          | none => .ok (system.leases.getOpt (call.name shardId))
        some (system.proceed index call (call.read shardId worldId now answer))
      | _ => none
  | .write index delivery now => do
      let call ← system.calls[index]?
      match call.phase with
      | .writing shardId lease =>
        let (leases, answer) := system.leases.deliver (call.name shardId) lease delivery
        some { system.proceed index call (call.wrote shardId now answer) with leases }
      | _ => none
  | .drop index => do
      let call ← system.calls[index]?
      some (system.proceed index call .dropped)

def Step (before : OwnershipSystem) (action : Action) (after : OwnershipSystem) : Prop :=
  step regionId realmId before action = some after

end Steps

section Fence

variable {regionId realmId : UInt32} {system after : OwnershipSystem} {action : Action}
variable (leases : LeaseApi) (call : ReconcileCall)

def Succeeds (regionId realmId : UInt32) (name : String) (base lease : Lease) : Prop :=
  ShardLease regionId realmId name base → ShardLease regionId realmId name lease ∧
    Fenced (fun lease : Lease => lease.epoch.getD 0) Lease.holder base lease

abbrev Lawful (regionId realmId : UInt32) (leases : LeaseApi) : Prop :=
  VersionedStore.Lawful (ShardLease regionId realmId) (Succeeds regionId realmId) leases

def Ready (leases : LeaseApi) : ReconcileCall → Prop
  | { phase := .reading _ worldId _, .. } => worldId ≠ ""
  | { config, phase := .writing shardId lease, .. } =>
    VersionedStore.Drafted (ShardLease config.regionId config.realmId)
      (Succeeds config.regionId config.realmId) leases
      (leaseName config.regionId config.realmId shardId) lease.draft
  | _ => True

structure Sound (regionId realmId : UInt32) (system : OwnershipSystem) : Prop where
  coordinators : ∀ coordinator ∈ system.coordinators,
    coordinator.config.regionId = regionId ∧ coordinator.config.realmId = realmId
  calls : ∀ call ∈ system.calls, call.config.regionId = regionId ∧
    call.config.realmId = realmId ∧ Ready system.leases call
  lawful : Lawful regionId realmId system.leases

theorem ready_enter (shardId : UInt32)
    (now : Nat) : Ready leases { call with phase := call.enter shardId now } := by
  simp only [ReconcileCall.enter]
  split
  · rename_i found
    exact preferredWorld_ne_empty found
  · trivial

theorem ready_wrote (shardId : UInt32)
    (now : Nat) (answer : Except KubeError Unit) :
    Ready leases { call with phase := call.wrote shardId now answer } := by
  cases answer with
  | error => trivial
  | ok =>
    simp only [ReconcileCall.wrote, ReconcileCall.next]
    split
    · exact ready_enter leases call _ now
    · trivial

theorem ready_start (coordinator : OwnershipCoordinator) (now : Nat) :
    Ready leases (.start coordinator now) := by
  simp only [ReconcileCall.start]
  split
  · trivial
  · exact ready_enter leases ⟨coordinator.config, coordinator.worldIds, .dropped⟩ 0 now

theorem ready_read (shardId : UInt32)
    {worldId : String} (named : worldId ≠ "") (now : Nat) :
    Ready leases { call with
      phase := call.read shardId worldId now (.ok (leases.getOpt (call.name shardId))) } := by
  simp only [ReconcileCall.read]
  split
  · trivial
  · rename_i lease prepared
    cases found : leases.getOpt (call.name shardId) with
    | none =>
      rw [found] at prepared
      cases prepared
      exact ⟨⟨shardId, rfl, rfl⟩, ⟨_, 1, rfl, named, rfl, le_rfl⟩⟩
    | some =>
      rw [found] at prepared
      obtain ⟨base, version, rfl, -, read⟩ := LeaseApi.getOpt_eq_some found
      have numbered : lease.draft = .replace version lease.stored := by
        simp only [Lease.draft, renewLease_metadata prepared, Lease.numbered]
      simp only [Ready, numbered]
      exact ⟨base, read, fun old => renewLease_fenced old named prepared⟩

theorem Ready.commit {leases later : LeaseApi} {call : ReconcileCall} {name : String}
    {draft : Draft Lease} (ready : Ready leases call)
    (committed : leases.commit name draft = some later) : Ready later call := by
  rcases call with ⟨config, worldIds, phase⟩
  cases phase with
  | writing => exact VersionedStore.Drafted.commit ready committed
  | reading | returned | dropped => exact ready

theorem Sound.initial : Sound regionId realmId .initial where
  coordinators := nofun
  calls := nofun
  lawful := .empty

theorem Sound.proceed (sound : Sound regionId realmId system) {index : Nat}
    {call : ReconcileCall} (found : system.calls[index]? = some call) {phase : ReconcilePhase}
    (ready : Ready system.leases { call with phase }) :
    Sound regionId realmId (system.proceed index call phase) where
  coordinators := sound.coordinators
  lawful := sound.lawful
  calls := by
    intro other listed
    rcases mem_or_eq_of_mem_set listed with old | rfl
    · exact sound.calls other old
    · obtain ⟨region, realm, -⟩ := sound.calls call (mem_of_getElem? found)
      exact ⟨region, realm, ready⟩

theorem Sound.deliver (sound : Sound regionId realmId system) {index : Nat}
    {call : ReconcileCall} (found : system.calls[index]? = some call) {shardId : UInt32}
    {lease : Lease} (writing : call.phase = .writing shardId lease)
    (delivery : LeaseApi.Delivery) :
    Sound regionId realmId { system with
      leases := (system.leases.deliver (call.name shardId) lease delivery).1 } := by
  obtain ⟨region, realm, ready⟩ := sound.calls call (mem_of_getElem? found)
  rcases system.leases.deliver_cases (call.name shardId) lease delivery with same | committed
  · rw [same]
    exact sound
  · refine ⟨sound.coordinators, ?_, ?_⟩
    · intro other listed
      obtain ⟨otherRegion, otherRealm, otherReady⟩ := sound.calls other listed
      exact ⟨otherRegion, otherRealm, otherReady.commit committed⟩
    · rcases call with ⟨config, worldIds, phase⟩
      cases writing
      subst region realm
      exact sound.lawful.commit ready committed

theorem Step.sound (taken : Step regionId realmId system action after)
    (sound : Sound regionId realmId system) : Sound regionId realmId after := by
  cases action with
  | create config =>
    simp only [Step, step] at taken
    split_ifs at taken with inScope
    split at taken
    · cases taken
    · rename_i coordinator created
      cases taken
      obtain ⟨_, _, isNew⟩ := bind_ok created
      cases isNew
      exact ⟨forall_mem_append.mpr ⟨sound.coordinators, forall_mem_singleton.mpr inScope⟩,
        sound.calls, sound.lawful⟩
  | updateWorlds index targets =>
    obtain ⟨coordinator, found, taken⟩ := bind_eq_some_iff.mp taken
    split at taken
    · cases taken
      exact sound
    · rename_i updated changed
      cases taken
      refine ⟨?_, sound.calls, sound.lawful⟩
      intro other listed
      rcases mem_or_eq_of_mem_set listed with old | rfl
      · exact sound.coordinators other old
      · simp only [OwnershipCoordinator.updateWorlds] at changed
        split_ifs at changed
        cases changed
        exact sound.coordinators coordinator (mem_of_getElem? found)
  | reconcile _ now =>
    obtain ⟨coordinator, found, taken⟩ := bind_eq_some_iff.mp taken
    cases taken
    obtain ⟨region, realm⟩ := sound.coordinators coordinator (mem_of_getElem? found)
    refine ⟨sound.coordinators, forall_mem_append.mpr ⟨sound.calls, ?_⟩, sound.lawful⟩
    exact forall_mem_singleton.mpr ⟨region, realm, ready_start system.leases coordinator now⟩
  | get index failure =>
    obtain ⟨call, found, taken⟩ := bind_eq_some_iff.mp taken
    split at taken
    · rename_i shardId worldId now reading
      cases taken
      apply sound.proceed found
      cases failure with
      | some => trivial
      | none =>
        obtain ⟨-, -, ready⟩ := sound.calls call (mem_of_getElem? found)
        rcases call with ⟨config, worldIds, phase⟩
        cases reading
        exact ready_read system.leases _ shardId ready now
    · cases taken
  | write index delivery now =>
    obtain ⟨call, found, taken⟩ := bind_eq_some_iff.mp taken
    split at taken
    · rename_i shardId lease writing
      cases taken
      exact (sound.deliver found writing delivery).proceed found (ready_wrote _ call _ _ _)
    · cases taken
  | drop =>
    obtain ⟨call, found, taken⟩ := bind_eq_some_iff.mp taken
    cases taken
    exact sound.proceed found trivial

theorem sound_of_run (run : RunWhen (fun _ _ => True) (Step regionId realmId) .initial system) :
    Sound regionId realmId system :=
  run.invariant (fun _ _ _ _ taken sound => taken.sound sound) .initial

end Fence

def versions (regionId realmId : UInt32) (system : OwnershipSystem) (shardId : UInt32) :
    List Lease :=
  system.leases.history (leaseName regionId realmId shardId)

def Held (regionId realmId : UInt32) (system : OwnershipSystem) (shardId : UInt32) (epoch : Int)
    (worldId : String) : Prop :=
  ∃ lease ∈ system.versions regionId realmId shardId,
    lease.holder = some worldId ∧ lease.epoch = some epoch

def VersionOf (regionId realmId : UInt32) (system : OwnershipSystem) (shardId : UInt32)
    (lease : Lease) : Prop :=
  ∃ (index : Nat) (stored : Lease),
    (system.versions regionId realmId shardId)[index]? = some stored ∧
      lease = stored.numbered (index + 1)

section Observed

variable {regionId realmId : UInt32} {system : OwnershipSystem}
variable {shardId : UInt32} {lease : Lease}

section

variable (sound : Sound regionId realmId system)
include sound

theorem Sound.shardLease
    (listed : lease ∈ system.versions regionId realmId shardId) :
    ShardLease regionId realmId (leaseName regionId realmId shardId) lease :=
  sound.lawful.forall (fun _ _ opened => opened) (fun _ _ _ held succeeds => (succeeds held).1)
    listed

theorem Sound.fenced (shardId : UInt32) :
    (system.versions regionId realmId shardId).IsChain
      (Fenced (fun lease : Lease => lease.epoch.getD 0) Lease.holder) := by
  refine List.IsChain.imp_of_mem_imp ?_ (sound.lawful.follows _)
  intro base lease baseListed _ succeeds
  exact (succeeds (sound.shardLease baseListed)).2

theorem Sound.begun
    (listed : lease ∈ system.versions regionId realmId shardId) :
    lease.epoch = some (lease.epoch.getD 0) := by
  obtain ⟨_, epoch, _, _, begun, _⟩ := (sound.shardLease listed).held
  simp [begun]

theorem Sound.held_unique {epoch : Int}
    {left right : String} (leftHeld : system.Held regionId realmId shardId epoch left)
    (rightHeld : system.Held regionId realmId shardId epoch right) : left = right := by
  obtain ⟨leftLease, leftListed, leftHolder, leftEpoch⟩ := leftHeld
  obtain ⟨rightLease, rightListed, rightHolder, rightEpoch⟩ := rightHeld
  have same := holder_unique (sound.fenced shardId) leftListed rightListed
    (by simp [leftEpoch, rightEpoch])
  rw [leftHolder, rightHolder] at same
  exact some.inj same

theorem Sound.readable
    (version : system.VersionOf regionId realmId shardId lease) {now : Nat} {shardCount : UInt32}
    (counted : shardId < shardCount) (unexpired : lease.Unexpired now) {epoch : Int}
    (begun : lease.epoch = some epoch) :
    ∃ found, candidate now shardCount regionId realmId lease = some found ∧
      found.1.shardId = shardId ∧ (found.1.epoch : Int) = epoch := by
  obtain ⟨index, stored, listed, rfl⟩ := version
  have own := sound.shardLease (mem_of_getElem? listed)
  obtain ⟨worldId, _, holder, named, isEpoch, positive⟩ := own.held
  have same : some epoch = some _ := begun.symm.trans isEpoch
  cases same
  exact candidate_of_unexpired own.scopeMatches own.shardLabel_eq counted holder named begun
    (by omega) unexpired

end

end Observed

/-- Over a whole run no epoch of a shard has two holders, later versions have no smaller epoch and a
larger one if the holder has changed, and an observer takes for each shard the holder of the largest
epoch among the versions that have not run out. -/
theorem epochs_fence {regionId realmId : UInt32} {system : OwnershipSystem}
    (run : RunWhen (fun _ _ => True) (Step regionId realmId) .initial system) :
    (∀ shardId epoch left right, system.Held regionId realmId shardId epoch left →
      system.Held regionId realmId shardId epoch right → left = right) ∧
    (∀ shardId, (system.versions regionId realmId shardId).Pairwise (fun older newer =>
      ∃ before after, older.epoch = some before ∧ newer.epoch = some after ∧ before ≤ after ∧
        (older.holder ≠ newer.holder → before < after))) ∧
    ∀ (observed : List Lease),
      (∀ lease ∈ observed, ∃ shardId, system.VersionOf regionId realmId shardId lease) →
      ∀ now shardCount, ∀ assignment ∈
        assignmentsFromLeases observed now shardCount regionId realmId,
          system.Held regionId realmId assignment.shardId assignment.epoch assignment.worldId ∧
          IsGreatest { epoch : Int | ∃ lease ∈ observed,
            system.VersionOf regionId realmId assignment.shardId lease ∧ lease.Unexpired now ∧
              lease.epoch = some epoch } assignment.epoch := by
  have sound := sound_of_run run
  refine ⟨fun _ _ _ _ => sound.held_unique, ?_, ?_⟩
  · intro shardId
    refine List.Pairwise.imp_of_mem ?_ (pairwise_fenced (sound.fenced shardId))
    intro older newer olderListed newerListed fenced
    exact ⟨_, _, sound.begun olderListed, sound.begun newerListed, fenced.token_le, fenced.token_lt⟩
  · intro observed known now shardCount assignment assigned
    obtain ⟨⟨lease, listed, renewed, read⟩, largest⟩ := assignment_largest assigned
    obtain ⟨shardId, version⟩ := known lease listed
    obtain ⟨labelled, holder, epoch, unexpired, counted⟩ := candidate_eq_some read
    obtain ⟨own, held⟩ : assignment.shardId = shardId ∧
        system.Held regionId realmId shardId assignment.epoch assignment.worldId := by
      obtain ⟨index, stored, placed, rfl⟩ := version
      have member := mem_of_getElem? placed
      rw [Lease.label_numbered, (sound.shardLease member).shardLabel_eq] at labelled
      exact ⟨(some.inj labelled).symm, stored, member, holder, epoch⟩
    subst own
    refine ⟨held, ⟨lease, listed, version, unexpired, epoch⟩, ?_⟩
    rintro other ⟨otherLease, otherListed, otherVersion, otherUnexpired, otherEpoch⟩
    obtain ⟨found, otherRead, sameShard, sameEpoch⟩ :=
      sound.readable otherVersion counted otherUnexpired otherEpoch
    rw [← sameEpoch]
    exact Int.ofNat_le.mpr (largest otherLease otherListed found otherRead sameShard)

def twoCoordinators : List Action :=
  [.create (.new "games" 1 1 1), .create (.new "games" 1 1 1), .updateWorlds 0 ["a"],
    .updateWorlds 1 ["b"], .reconcile 0 5000, .reconcile 1 6000, .get 0 none, .get 1 none,
    .write 0 .answered 7000, .write 1 .answered 8000, .reconcile 1 9000, .get 2 none,
    .write 2 .answered 10000]

def seen (system : OwnershipSystem) : List Lease :=
  (system.versions 1 1 0).mapIdx (fun index lease => lease.numbered (index + 1))

/-- Both coordinators find no lease, one of them creates it and the other takes it over
later; an observer that is given both versions takes the second. -/
theorem second_coordinator_fences : ∃ system : OwnershipSystem,
    RunWhen (fun _ _ => True) (Step 1 1) .initial system ∧
    (system.versions 1 1 0).map (fun lease => (lease.holder, lease.epoch)) =
      [(some "a", some 1), (some "b", some 2)] ∧
    assignmentsFromLeases system.seen 11000 1 1 1 = [⟨1, 1, 0, "b", 2⟩] ∧
    IsGreatest { epoch : Int | ∃ lease ∈ system.seen, system.VersionOf 1 1 0 lease ∧
      lease.Unexpired 11000 ∧ lease.epoch = some epoch } 2 := by
  have followed : (follow (fun _ _ => True) (step 1 1) .initial twoCoordinators).any
      (fun system => (system.versions 1 1 0).map (fun lease => (lease.holder, lease.epoch)) =
          [(some "a", some 1), (some "b", some 2)] ∧
        assignmentsFromLeases system.seen 11000 1 1 1 = [⟨1, 1, 0, "b", 2⟩]) = true := by
    decide +kernel
  obtain ⟨system, run, versions, assigned⟩ := exists_run followed
  refine ⟨system, run, versions, assigned, ?_⟩
  have known : ∀ lease ∈ system.seen, ∃ shardId, system.VersionOf 1 1 shardId lease := by
    intro lease listed
    obtain ⟨index, bound, rfl⟩ := mem_mapIdx.mp listed
    exact ⟨0, index, _, getElem?_eq_getElem bound, rfl⟩
  exact ((epochs_fence run).2.2 system.seen known 11000 1 ⟨1, 1, 0, "b", 2⟩
    (by rw [assigned]; exact mem_singleton.mpr rfl)).2

end OwnershipSystem

end Elura
