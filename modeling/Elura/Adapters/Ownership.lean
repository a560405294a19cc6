import Elura.Adapters.KubernetesLease
import Elura.Basis.OrderedMap
import Elura.Core.Ownership

/-!
Shard leases: what a coordinator writes for a shard and what an observer reads from the
leases it has seen. The number of transitions of a lease is the epoch of its shard.
-/

namespace Elura

open List

open Std (ExtTreeMap)

def typeLabel : String := "elura.dev/ownership"

def typeValue : String := "world-shard"

def regionLabel : String := "elura.dev/region-id"

def realmLabel : String := "elura.dev/realm-id"

def shardLabel : String := "elura.dev/shard-id"

def leasePrefix (regionId realmId : UInt32) : String :=
  "elura-r" ++ toString regionId ++ "-realm" ++ toString realmId ++ "-world-shard-"

def leaseName (regionId realmId shardId : UInt32) : String :=
  leasePrefix regionId realmId ++ toString shardId

def leaseLabels (regionId realmId shardId : UInt32) : List (String × String) :=
  [(typeLabel, typeValue), (regionLabel, toString regionId), (realmLabel, toString realmId),
    (shardLabel, toString shardId)]

def scopeMatches (lease : Lease) (regionId realmId : UInt32) : Bool :=
  lease.label typeLabel == some typeValue && lease.label regionLabel == some (toString regionId) &&
    lease.label realmLabel == some (toString realmId)

/-! The observer's side. -/

def candidate (now : Nat) (shardCount regionId realmId : UInt32) (lease : Lease) :
    Option (Assignment × Nat) := do
  guard (scopeMatches lease regionId realmId)
  let shardId ← (lease.label shardLabel).bind parseU32
  guard (shardId < shardCount)
  let spec ← lease.spec
  let worldId ← spec.holderIdentity
  guard (worldId ≠ "")
  let epoch ← spec.leaseTransitions
  guard (epoch > 0)
  let renewed ← spec.renewTime
  let duration ← spec.leaseDurationSeconds
  guard (duration > 0)
  guard (now < renewed + Duration.ofSecs duration.toNat)
  pure ({ regionId, realmId, shardId, worldId, epoch := epoch.toNat }, renewed)

def shouldReplace (found : Assignment × Nat) : Option (Assignment × Nat) → Bool
  | none => true
  | some previous =>
    found.1.epoch > previous.1.epoch ||
      (found.1.epoch == previous.1.epoch && found.2 > previous.2)

def select (now : Nat) (shardCount regionId realmId : UInt32)
    (selected : ExtTreeMap UInt32 (Assignment × Nat)) (lease : Lease) :
    ExtTreeMap UInt32 (Assignment × Nat) :=
  match candidate now shardCount regionId realmId lease with
  | none => selected
  | some found =>
    if shouldReplace found selected[found.1.shardId]? then selected.insert found.1.shardId found
    else selected

/-- The hash map of the source, sorted by shard at the end, is an ordered map. -/
def assignmentsFromLeases (leases : List Lease) (now : Nat)
    (shardCount regionId realmId : UInt32) : List Assignment :=
  (leases.foldl (select now shardCount regionId realmId) ∅).toList.map (fun entry => entry.2.1)

def Lease.Unexpired (now : Nat) (lease : Lease) : Prop :=
  ∃ spec renewed duration, lease.spec = some spec ∧ spec.renewTime = some renewed ∧
    spec.leaseDurationSeconds = some duration ∧ 0 < duration ∧
      now < renewed + Duration.ofSecs duration.toNat

section Observer

variable {now : Nat} {shardCount regionId realmId : UInt32} {lease : Lease}

theorem candidate_eq_some {found : Assignment × Nat}
    (read : candidate now shardCount regionId realmId lease = some found) :
    (lease.label shardLabel).bind parseU32 = some found.1.shardId ∧
      lease.holder = some found.1.worldId ∧ lease.epoch = some (found.1.epoch : Int) ∧
      lease.Unexpired now ∧ found.1.shardId < shardCount := by
  simp only [candidate, Option.bind_eq_bind, Option.bind_eq_some_iff, Option.guard_eq_some',
    Option.pure_def, Option.some.injEq] at read
  obtain ⟨_, _, shardId, labelled, _, counted, spec, isSpec, worldId, held, _, _, epoch, begun, _,
    positive, renewed, isRenewed, duration, isDuration, _, lasting, _, later, rfl⟩ := read
  refine ⟨Option.bind_eq_some_iff.mpr labelled, ?_, ?_, ?_, counted⟩
  · simp [Lease.holder, isSpec, held]
  · simp only [Lease.epoch, isSpec, Option.bind_some, begun, Int.toNat_of_nonneg positive.le]
  · exact ⟨spec, renewed, duration, isSpec, isRenewed, isDuration, lasting, later⟩

theorem candidate_of_unexpired {shardId : UInt32} {worldId : String} {epoch : Int}
    (inScope : scopeMatches lease regionId realmId = true)
    (labelled : (lease.label shardLabel).bind parseU32 = some shardId)
    (counted : shardId < shardCount) (held : lease.holder = some worldId) (named : worldId ≠ "")
    (begun : lease.epoch = some epoch) (positive : 0 < epoch) (unexpired : lease.Unexpired now) :
    ∃ found, candidate now shardCount regionId realmId lease = some found ∧
      found.1.shardId = shardId ∧ (found.1.epoch : Int) = epoch := by
  obtain ⟨spec, renewed, duration, isSpec, isRenewed, isDuration, lasting, later⟩ := unexpired
  simp only [Lease.holder, isSpec] at held
  simp only [Lease.epoch, isSpec] at begun
  refine ⟨({ regionId, realmId, shardId, worldId, epoch := epoch.toNat }, renewed), ?_, rfl, ?_⟩
  · simp only [candidate, Option.bind_eq_bind, Option.bind_eq_some_iff, Option.guard_eq_some']
    exact ⟨(), inScope, shardId, Option.bind_eq_some_iff.mp labelled, (), counted, spec, isSpec,
      worldId, held, (), named, epoch, begun, (), positive, renewed, isRenewed, duration,
      isDuration, (), lasting, (), later, rfl⟩
  · exact Int.toNat_of_nonneg positive.le

structure Selects (leases : List Lease) (now : Nat) (shardCount regionId realmId : UInt32)
    (selected : ExtTreeMap UInt32 (Assignment × Nat)) : Prop where
  read : ∀ {shardId : UInt32} {found : Assignment × Nat}, selected[shardId]? = some found →
    found.1.shardId = shardId ∧
      ∃ lease ∈ leases, candidate now shardCount regionId realmId lease = some found
  largest : ∀ {lease : Lease} {other : Assignment × Nat}, lease ∈ leases →
    candidate now shardCount regionId realmId lease = some other →
      ∃ found, selected[other.1.shardId]? = some found ∧ other.1.epoch ≤ found.1.epoch

theorem epoch_le_of_not_shouldReplace {found : Assignment × Nat}
    {previous : Option (Assignment × Nat)} (keeps : ¬shouldReplace found previous = true) :
    ∃ kept, previous = some kept ∧ found.1.epoch ≤ kept.1.epoch := by
  cases previous with
  | none => exact absurd rfl keeps
  | some kept =>
    simp only [shouldReplace, Bool.or_eq_true, decide_eq_true_eq] at keeps
    exact ⟨kept, rfl, by omega⟩

theorem select_selects {leases : List Lease}
    {selected : ExtTreeMap UInt32 (Assignment × Nat)}
    (selects : Selects leases now shardCount regionId realmId selected) (lease : Lease) :
    Selects (leases ++ [lease]) now shardCount regionId realmId
      (select now shardCount regionId realmId selected lease) := by
  have earlier : ∀ {shardId : UInt32} {found : Assignment × Nat},
      selected[shardId]? = some found → found.1.shardId = shardId ∧ ∃ old ∈ leases ++ [lease],
        candidate now shardCount regionId realmId old = some found := by
    intro shardId found present
    obtain ⟨own, old, listed, read⟩ := selects.read present
    exact ⟨own, old, mem_append_left _ listed, read⟩
  simp only [select]
  split
  · rename_i unread
    refine ⟨earlier, ?_⟩
    intro old other listed read
    rcases mem_append.mp listed with known | new
    · exact selects.largest known read
    · rw [mem_singleton.mp new, unread] at read
      cases read
  · rename_i found isCandidate
    split
    · rename_i replaces
      constructor
      · intro shardId other present
        rw [OrderedMap.getElem?_insert_ite] at present
        split at present
        · rename_i own
          cases present
          exact ⟨own, lease, by simp, isCandidate⟩
        · exact earlier present
      · intro old other listed read
        rw [OrderedMap.getElem?_insert_ite]
        rcases mem_append.mp listed with known | new
        · obtain ⟨previous, present, ordered⟩ := selects.largest known read
          split
          · rename_i same
            rw [same, present] at replaces
            simp only [shouldReplace, Bool.or_eq_true, Bool.and_eq_true, decide_eq_true_eq,
              beq_iff_eq] at replaces
            exact ⟨found, rfl, by omega⟩
          · exact ⟨previous, present, ordered⟩
        · rw [mem_singleton.mp new, isCandidate] at read
          cases read
          exact ⟨found, if_pos rfl, le_rfl⟩
    · rename_i keeps
      refine ⟨earlier, ?_⟩
      intro old other listed read
      rcases mem_append.mp listed with known | new
      · exact selects.largest known read
      · rw [mem_singleton.mp new, isCandidate] at read
        cases read
        exact epoch_le_of_not_shouldReplace keeps

theorem foldl_select_selects (leases : List Lease) :
    Selects leases now shardCount regionId realmId
      (leases.foldl (select now shardCount regionId realmId) ∅) := by
  induction leases using reverseRecOn with
  | nil =>
    constructor
    · intro shardId found present
      simp at present
    · intro lease other listed
      cases listed
  | append_singleton _ lease ih =>
    rw [foldl_append]
    exact select_selects ih lease

/-- Every assignment is read from one of the leases, and none of the others that can be read
for its shard is of a larger epoch. -/
theorem assignment_largest {leases : List Lease} {assignment : Assignment}
    (assigned : assignment ∈ assignmentsFromLeases leases now shardCount regionId realmId) :
    (∃ lease ∈ leases, ∃ renewed,
      candidate now shardCount regionId realmId lease = some (assignment, renewed)) ∧
    ∀ lease ∈ leases, ∀ other,
      candidate now shardCount regionId realmId lease = some other →
        other.1.shardId = assignment.shardId → other.1.epoch ≤ assignment.epoch := by
  obtain ⟨⟨shardId, found⟩, kept, rfl⟩ := mem_map.mp assigned
  have present := ExtTreeMap.mem_toList_iff_getElem?_eq_some.mp kept
  have selects : Selects leases now shardCount regionId realmId _ := foldl_select_selects leases
  obtain ⟨own, lease, listed, read⟩ := selects.read present
  refine ⟨⟨lease, listed, found.2, read⟩, ?_⟩
  intro other otherListed candidate otherRead same
  obtain ⟨best, bestPresent, ordered⟩ := selects.largest otherListed otherRead
  rw [same, own, present] at bestPresent
  cases bestPresent
  exact ordered

end Observer

/-! The coordinator's side. -/

structure OwnershipCoordinatorConfig where
  inNamespace : String
  regionId : UInt32
  realmId : UInt32
  shardCount : UInt32
  leaseDuration : Duration
  renewInterval : Duration
  deriving DecidableEq, Repr

namespace OwnershipCoordinatorConfig

def new (inNamespace : String) (regionId realmId shardCount : UInt32) :
    OwnershipCoordinatorConfig where
  inNamespace := inNamespace
  regionId := regionId
  realmId := realmId
  shardCount := shardCount
  leaseDuration := .ofSecs 30
  renewInterval := .ofSecs 10

def validate (config : OwnershipCoordinatorConfig) : Except Error Unit := do
  if isBlank config.inNamespace ∨ config.regionId = 0 ∨ config.realmId = 0 ∨
      config.shardCount = 0 then
    throw (.invalidConfig
      "Kubernetes coordinator namespace, region, realm and shard count are required")
  if config.renewInterval = 0 ∨ config.renewInterval ≥ config.leaseDuration ∨
      i32Max < config.leaseDuration.asSecs then
    throw (.invalidConfig "Kubernetes coordinator requires renew interval < lease duration")

end OwnershipCoordinatorConfig

structure OwnershipCoordinator where
  config : OwnershipCoordinatorConfig
  worldIds : List String
  deriving DecidableEq, Repr

namespace OwnershipCoordinator

def new (config : OwnershipCoordinatorConfig) : Except Error OwnershipCoordinator := do
  config.validate
  pure { config, worldIds := [] }

/-- Only the identifiers of the targets are read; a `BTreeSet` sorts them. -/
def updateWorlds (coordinator : OwnershipCoordinator) (targets : List String) :
    Except Error OwnershipCoordinator :=
  let ids := targets.dedup.insertionSort (· ≤ ·)
  if "" ∈ ids then .error (.invalidConfig "empty World instance ID")
  else .ok { coordinator with worldIds := ids }

end OwnershipCoordinator

def newLease (config : OwnershipCoordinatorConfig) (shardId : UInt32) (worldId : String)
    (now : Nat) : Lease where
  metadata :=
    { name := some (leaseName config.regionId config.realmId shardId)
      labels := some (leaseLabels config.regionId config.realmId shardId) }
  spec := some
    { holderIdentity := some worldId
      leaseDurationSeconds := some (asI32 config.leaseDuration.asSecs)
      acquireTime := some now
      renewTime := some now
      leaseTransitions := some 1 }

def transferLease (spec : LeaseSpec) (worldId : String) (now : Nat) :
    Except Error LeaseSpec :=
  if spec.holderIdentity = some worldId then .ok spec
  else
    let transitions := max (spec.leaseTransitions.getD 1) 1
    if transitions < i32Max then
      .ok { spec with
            leaseTransitions := some (transitions + 1)
            holderIdentity := some worldId
            acquireTime := some now }
    else .error (.internal "Lease epoch exhausted")

def renewLease (config : OwnershipCoordinatorConfig) (shardId : UInt32) (worldId : String)
    (now : Nat) (lease : Lease) : Except Error Lease :=
  if scopeMatches lease config.regionId config.realmId then do
    let spec ← transferLease (lease.spec.getD {}) worldId now
    pure { lease with
      spec := some { spec with
        leaseDurationSeconds := some (asI32 config.leaseDuration.asSecs)
        renewTime := some now } }
  else
    .error (.invalidConfig ("Lease " ++ leaseName config.regionId config.realmId shardId ++
      " belongs to another scope"))

def reconciledLease (config : OwnershipCoordinatorConfig) (shardId : UInt32) (worldId : String)
    (now : Nat) : Option Lease → Except Error Lease
  | some lease => renewLease config shardId worldId now lease
  | none => .ok (newLease config shardId worldId now)

section Coordinator

variable {config : OwnershipCoordinatorConfig} {shardId : UInt32} {worldId : String}
  {now : Nat} {lease renewed : Lease}
variable {regionId realmId : UInt32}

structure ShardLease (regionId realmId : UInt32) (name : String) (lease : Lease) : Prop where
  shard : ∃ shardId, name = leaseName regionId realmId shardId ∧
    lease.metadata.labels = some (leaseLabels regionId realmId shardId)
  held : ∃ worldId epoch, lease.holder = some worldId ∧ worldId ≠ "" ∧
    lease.epoch = some epoch ∧ (1 : Int) ≤ epoch

theorem leaseName_injective {left right : UInt32}
    (same : leaseName regionId realmId left = leaseName regionId realmId right) : left = right := by
  have digits : toString left = toString right := (String.append_right_inj _).mp same
  have parsed := parseU32_toString left
  rw [digits, parseU32_toString] at parsed
  exact (Option.some.inj parsed).symm

section

variable (own : ShardLease regionId realmId (leaseName regionId realmId shardId) lease)
include own

theorem ShardLease.labels_eq :
    lease.metadata.labels = some (leaseLabels regionId realmId shardId) := by
  obtain ⟨other, same, labelled⟩ := own.shard
  rw [leaseName_injective same]
  exact labelled

theorem ShardLease.shardLabel_eq :
    (lease.label shardLabel).bind parseU32 = some shardId := by
  have text : lease.label shardLabel = some (toString shardId) := by
    rw [Lease.label, own.labels_eq]
    rfl
  rw [text]
  exact parseU32_toString shardId

theorem ShardLease.scopeMatches :
    scopeMatches lease regionId realmId = true := by
  have region : lease.label regionLabel = some (toString regionId) := by
    rw [Lease.label, own.labels_eq]
    rfl
  have realm : lease.label realmLabel = some (toString realmId) := by
    rw [Lease.label, own.labels_eq]
    rfl
  have kind : lease.label typeLabel = some typeValue := by
    rw [Lease.label, own.labels_eq]
    rfl
  simp [Elura.scopeMatches, region, realm, kind]

end
theorem renewLease_metadata
    (succeeded : renewLease config shardId worldId now lease = .ok renewed) :
    renewed.metadata = lease.metadata := by
  simp only [renewLease] at succeeded
  split_ifs at succeeded
  obtain ⟨_, _, rest⟩ := bind_ok succeeded
  cases rest
  rfl

theorem renewLease_eq_ok {epoch : Int}
    (succeeded : renewLease config shardId worldId now lease = .ok renewed)
    (begun : lease.epoch = some epoch) (positive : 1 ≤ epoch) :
    renewed.holder = some worldId ∧
      ((lease.holder = some worldId ∧ renewed.epoch = some epoch) ∨
        renewed.epoch = some (epoch + 1)) := by
  simp only [renewLease] at succeeded
  split_ifs at succeeded
  obtain ⟨after, transferred, rest⟩ := bind_ok succeeded
  cases rest
  rw [← Lease.leaseTransitions_getD] at begun
  rw [← lease.holderIdentity_getD]
  simp only [transferLease] at transferred
  split at transferred
  · rename_i same
    cases transferred
    exact ⟨same, .inl ⟨same, begun⟩⟩
  · split_ifs at transferred
    cases transferred
    refine ⟨rfl, .inr ?_⟩
    simp [begun, max_eq_left positive, Lease.epoch]

/-- A version written over another keeps its epoch with its holder, or starts the next one. -/
theorem renewLease_fenced {name : String} {base : Lease} {version : Nat}
    (old : ShardLease regionId realmId name base) (named : worldId ≠ "")
    (succeeded : renewLease config shardId worldId now (base.numbered version) = .ok renewed) :
    ShardLease regionId realmId name renewed.stored ∧
      Fenced (fun lease : Lease => lease.epoch.getD 0) Lease.holder base renewed.stored := by
  obtain ⟨_, epoch, _, _, begun, positive⟩ := old.held
  obtain ⟨held, moved⟩ := renewLease_eq_ok succeeded begun positive
  obtain ⟨ownShard, isName, labelled⟩ := old.shard
  have labels : renewed.stored.metadata.labels = some (leaseLabels regionId realmId ownShard) := by
    simpa [Lease.stored, renewLease_metadata succeeded, Lease.numbered] using labelled
  rcases moved with ⟨same, kept⟩ | next
  · refine ⟨⟨⟨ownShard, isName, labels⟩, worldId, epoch, by simp [held], named, by simp [kept],
      positive⟩, .inr ⟨by simp [begun, kept], ?_⟩⟩
    simpa [held] using same
  · refine ⟨⟨⟨ownShard, isName, labels⟩, worldId, epoch + 1, by simp [held], named,
      by simp [next], by omega⟩, .inl ?_⟩
    simp [begun, next]

end Coordinator

end Elura
