import Elura.Basis.VersionedStore
import Elura.Core.Values

/-!
Kubernetes `Lease` objects and the API calls both lease clients make. A replacement is accepted
only while it names the newest version. Times are nanoseconds; the server keeps microseconds.
-/

namespace Elura

/-- What is left of a time that has been written as text. -/
def microTime (time : Nat) : Nat :=
  time / 1000 * 1000

structure ObjectMeta where
  name : Option String := none
  inNamespace : Option String := none
  labels : Option (List (String × String)) := none
  resourceVersion : Option Nat := none
  deriving DecidableEq, Repr

structure LeaseSpec where
  holderIdentity : Option String := none
  leaseDurationSeconds : Option Int := none
  acquireTime : Option Nat := none
  renewTime : Option Nat := none
  leaseTransitions : Option Int := none
  deriving DecidableEq, Repr

def LeaseSpec.stored (spec : LeaseSpec) : LeaseSpec :=
  { spec with
    acquireTime := spec.acquireTime.map microTime
    renewTime := spec.renewTime.map microTime }

structure Lease where
  metadata : ObjectMeta
  spec : Option LeaseSpec
  deriving DecidableEq, Repr

namespace Lease

def label (lease : Lease) (key : String) : Option String :=
  lease.metadata.labels.bind (fun labels => labels.lookup key)

def holder (lease : Lease) : Option String :=
  lease.spec.bind (fun spec => spec.holderIdentity)

def epoch (lease : Lease) : Option Int :=
  lease.spec.bind (fun spec => spec.leaseTransitions)

def numbered (lease : Lease) (version : Nat) : Lease :=
  { lease with metadata := { lease.metadata with resourceVersion := some version } }

def stored (lease : Lease) : Lease where
  metadata := { lease.metadata with resourceVersion := none }
  spec := lease.spec.map LeaseSpec.stored

section

variable (lease : Lease)
include lease

theorem holderIdentity_getD :
    (lease.spec.getD {}).holderIdentity = lease.holder := by
  cases spec : lease.spec <;> simp [holder, spec]

theorem leaseTransitions_getD :
    (lease.spec.getD {}).leaseTransitions = lease.epoch := by
  cases spec : lease.spec <;> simp [epoch, spec]

@[simp] theorem holder_numbered (version : Nat) :
    (lease.numbered version).holder = lease.holder := rfl

@[simp] theorem label_numbered (version : Nat) (key : String) :
    (lease.numbered version).label key = lease.label key := rfl

@[simp] theorem holder_stored : lease.stored.holder = lease.holder := by
  cases spec : lease.spec <;> simp [holder, stored, LeaseSpec.stored, spec]

@[simp] theorem epoch_stored : lease.stored.epoch = lease.epoch := by
  cases spec : lease.spec <;> simp [epoch, stored, LeaseSpec.stored, spec]

end

def draft (lease : Lease) : Draft Lease :=
  match lease.metadata.resourceVersion with
  | some version => .replace version lease.stored
  | none => .create lease.stored

theorem draft_value (lease : Lease) : lease.draft.value = lease.stored := by
  simp only [draft]
  split <;> rfl

end Lease

structure KubeError where
  code : Option Nat
  text : String
  deriving DecidableEq, Repr

def kubeError (error : KubeError) : Error :=
  .internal ("kubernetes: " ++ error.text)

abbrev LeaseApi := VersionedStore String Lease

namespace LeaseApi

def getOpt (api : LeaseApi) (name : String) : Option Lease :=
  (api.latest name).map (fun newest => newest.2.numbered newest.1)

def write (api : LeaseApi) (name : String) (lease : Lease) : Except KubeError LeaseApi :=
  match api.commit name lease.draft with
  | some after => .ok after
  | none =>
    if (api.history name).isEmpty then .error { code := some 404, text := "not found" }
    else .error { code := some 409, text := "conflict" }

/-- How a write ends besides the server's own answer: it may get lost on the way there, or the
answer may get lost on the way back. -/
inductive Delivery
  | answered
  | unanswered (error : KubeError)
  | undelivered (error : KubeError)
  deriving DecidableEq, Repr

def deliver (api : LeaseApi) (name : String) (lease : Lease) :
    Delivery → LeaseApi × Except KubeError Unit
  | .answered =>
    match api.write name lease with
    | .ok after => (after, .ok ())
    | .error error => (api, .error error)
  | .unanswered error =>
    match api.write name lease with
    | .ok after => (after, .error error)
    | .error _ => (api, .error error)
  | .undelivered error => (api, .error error)

variable {api after : LeaseApi} {name : String} {lease : Lease} {delivery : Delivery}

theorem getOpt_eq_some (found : api.getOpt name = some lease) :
    ∃ base version, lease = base.numbered version ∧ (api.history name).length = version ∧
      (api.history name)[version - 1]? = some base := by
  obtain ⟨⟨version, base⟩, newest, rfl⟩ := Option.map_eq_some_iff.mp found
  obtain ⟨last, read⟩ := VersionedStore.latest_eq_some newest
  exact ⟨base, version, rfl, last, read⟩

theorem write_eq_ok (accepted : api.write name lease = .ok after) :
    api.commit name lease.draft = some after := by
  simp only [write] at accepted
  split at accepted
  · cases accepted
    assumption
  · split at accepted
    · cases accepted
    · cases accepted

theorem deliver_cases (api : LeaseApi) (name : String) (lease : Lease) (delivery : Delivery) :
    (api.deliver name lease delivery).1 = api ∨
      api.commit name lease.draft = some (api.deliver name lease delivery).1 := by
  cases delivery with
  | answered | unanswered =>
    simp only [deliver]
    split
    · rename_i accepted
      exact .inr (write_eq_ok accepted)
    · exact .inl rfl
  | undelivered => exact .inl rfl

theorem deliver_ok (succeeded : (api.deliver name lease delivery).2 = .ok ()) :
    api.commit name lease.draft = some (api.deliver name lease delivery).1 := by
  cases delivery with
  | answered =>
    simp only [deliver] at succeeded ⊢
    split at succeeded
    · rename_i accepted
      exact write_eq_ok accepted
    · cases succeeded
  | unanswered =>
    simp only [deliver] at succeeded
    split at succeeded
    · cases succeeded
    · cases succeeded
  | undelivered => cases succeeded

end LeaseApi

end Elura
