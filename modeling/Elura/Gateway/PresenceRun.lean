import Elura.Basis.Runs
import Elura.Gateway.PresenceRegistered

/-!
Runs of the in-memory online directory under one admission policy: any operations
of any gateways in the name of any sessions, and the passing of time.
-/

namespace Elura

open Fallible

open Std (ExtTreeMap)
open MemoryOnlineDirectory

namespace DirectoryOperation

def Purges : DirectoryOperation → Prop
  | acquire lease policy => lease.identity.validate = .ok () ∧ policy.maxSessions ≠ some 0
  | renew lease => lease.identity.validate = .ok ()
  | query => True
  | unregister _ | trackGroup .. => False

def Fresh (now : Nat) : DirectoryOperation → Prop
  | acquire lease _ | renew lease => now < lease.expiresAt
  | unregister _ | trackGroup .. | query => True

end DirectoryOperation

structure PresenceWorld where
  directory : MemoryOnlineDirectory
  clock : Nat
  accepted : PlayerKey → Option Uuid

namespace PresenceWorld

def start (clock : Nat) : PresenceWorld where
  directory := .new
  clock
  accepted := fun _ => none

def recorded (accepted : PlayerKey → Option Uuid) (lease : SessionLease) :
    Except Error OnlineAdmission → PlayerKey → Option Uuid
  | .ok (.accepted _) =>
    Function.update accepted lease.identity.playerKey (some lease.sessionId)
  | _ => accepted

def perform (world : PresenceWorld) (operation : DirectoryOperation) : PresenceWorld :=
  { world with
    directory := operation.apply world.clock world.directory
    accepted :=
      match operation with
      | .acquire lease policy => recorded world.accepted lease
          ((MemoryOnlineDirectory.acquire lease policy world.clock).call world.directory).1
      | _ => world.accepted }

inductive Action
  | elapse (later : Nat)
  | perform (operation : DirectoryOperation)

inductive Step (setting : PresenceSetting) (world : PresenceWorld) :
    Action → PresenceWorld → Prop
  | elapse (later : Nat) (forward : world.clock ≤ later) :
      Step setting world (.elapse later) { world with clock := later }
  | perform (operation : DirectoryOperation) (permitted : setting.Permits operation) :
      Step setting world (.perform operation) (world.perform operation)

variable {setting : PresenceSetting} {world after : PresenceWorld} {action : Action}

theorem Step.registered (step : Step setting world action after)
    (registered : Registered setting world.directory world.accepted) :
    Registered setting after.directory after.accepted := by
  cases step with
  | elapse => exact registered
  | perform operation permitted =>
    have purged := registered.purge world.clock
    cases operation with
    | acquire lease policy =>
      obtain ⟨named, rfl⟩ := permitted
      simp only [PresenceWorld.perform, DirectoryOperation.apply]
      rcases acquire_cases lease (setting.policy lease) world.clock world.directory with
        ⟨error, refused⟩ | duplicate | full | ⟨free, room, accepted⟩
      · rw [refused]
        exact registered
      · rw [duplicate]
        exact purged
      · rw [full]
        exact purged
      · rw [accepted]
        exact purged.register named free room
    | renew lease =>
      simp only [PresenceWorld.perform, DirectoryOperation.apply]
      rcases renew_cases lease world.clock world.directory with
        unchanged | dropped | ⟨known, renewed⟩
      · rwa [unchanged]
      · rwa [dropped]
      · rw [renewed]
        exact purged.renewed permitted known
    | unregister => exact registered.unregister permitted
    | trackGroup =>
      simp only [PresenceWorld.perform, DirectoryOperation.apply, MemoryOnlineDirectory.trackGroup]
      split
      · exact registered
      · exact registered.congr registered.owner (fun _ => Iff.rfl) rfl rfl
    | query => exact purged

theorem registered_of_run {clock : Nat}
    (run : RunWhen (fun _ _ => True) (Step setting) (start clock) world) :
    Registered setting world.directory world.accepted :=
  run.invariant (fun _ _ _ _ step registered => step.registered registered) (.new setting)

section Operations

variable {directory : MemoryOnlineDirectory} {now : Nat} {lease : SessionLease}

theorem live_insert {after : MemoryOnlineDirectory}
    (written : after.sessions = directory.sessions.insert lease.sessionId lease)
    (fresh : now < lease.expiresAt) {session : Uuid}
    (live : lease.sessionId = session ∨ directory.Live now session) : after.Live now session := by
  rw [Live, written, OrderedMap.getElem?_insert_ite]
  by_cases own : lease.sessionId = session
  · rw [if_pos own]
    exact ⟨lease, rfl, fresh⟩
  · rw [if_neg own]
    exact live.resolve_left own

theorem purging_live {operation : DirectoryOperation} (purges : operation.Purges)
    (fresh : operation.Fresh now) {session : Uuid}
    (mentioned : (operation.apply now directory).Mentions session) :
    (operation.apply now directory).Live now session := by
  have dropped {session : Uuid} (mentioned : (directory.purge now).Mentions session) :
      (directory.purge now).Live now session := live_purge_iff.mpr (mentions_purge mentioned)
  cases operation with
  | acquire lease policy =>
    obtain ⟨valid, bounded⟩ := purges
    simp only [DirectoryOperation.apply, acquire_eq valid bounded] at mentioned ⊢
    split at mentioned
    · rename_i met
      rw [if_pos met]
      exact dropped mentioned
    · rename_i unmet
      rw [if_neg unmet]
      split at mentioned
      · rename_i full
        rw [if_pos full]
        exact dropped mentioned
      · rename_i room
        rw [if_neg room]
        exact live_insert rfl fresh ((mentions_register mentioned).imp_right dropped)
  | renew lease =>
    have valid : lease.identity.validate = .ok () := purges
    simp only [DirectoryOperation.apply, renew, call_bind, call_liftExcept, valid, call_modify,
      call_get] at mentioned ⊢
    split at mentioned
    · rename_i owned
      rw [if_pos owned]
      exact live_insert rfl fresh (.inr (dropped mentioned))
    · rename_i foreign
      rw [if_neg foreign]
      exact dropped mentioned
  | query => exact dropped mentioned
  | unregister | trackGroup => exact purges.elim

theorem acquire_answered {policy : OnlineAdmissionPolicy} {answer : OnlineAdmission}
    (answered : ((acquire lease policy now).call directory).1 = .ok answer) :
    lease.identity.validate = .ok () ∧ policy.maxSessions ≠ some 0 := by
  constructor
  · cases valid : lease.identity.validate with
    | ok => rfl
    | error =>
      simp [acquire, call_bind, valid] at answered
  · intro zero
    cases valid : lease.identity.validate with
    | ok =>
      simp [acquire, call_bind, valid, OnlineAdmissionPolicy.new, zero] at answered
    | error =>
      simp [acquire, call_bind, valid] at answered

def Rival (directory : MemoryOnlineDirectory) (now : Nat) (lease : SessionLease) : Prop :=
  ∃ (other : Uuid) (current : SessionLease), other ≠ lease.sessionId ∧
    directory.sessions[other]? = some current ∧
    current.identity.playerKey = lease.identity.playerKey ∧ now < current.expiresAt

variable {accepted : PlayerKey → Option Uuid}

theorem previous_isSome_iff (registered : Registered setting directory accepted)
    (reject : setting.mode = .rejectNew) :
    ((directory.purge now).previous lease).isSome ↔ Rival directory now lease := by
  rw [Option.isSome_iff_exists]
  constructor
  · rintro ⟨other, met⟩
    obtain ⟨held, different⟩ := Option.filter_eq_some_iff.mp met
    have user := (registered.purge now).holder _ _ held
    obtain ⟨current, found, fresh⟩ :=
      live_iff_mem_purge.mpr ((single_purge _ _ _ _).mp held).2
    exact ⟨other, current, of_decide_eq_true different, found,
      by rw [registered.owner other current found, user], fresh⟩
  · rintro ⟨other, current, different, found, user, fresh⟩
    have live : other ∈ (directory.purge now).sessions :=
      live_iff_mem_purge.mp ⟨current, found, fresh⟩
    have held := (registered.purge now).alone reject other live
    rw [← registered.owner other current found, user] at held
    exact ⟨other, Option.filter_eq_some_iff.mpr ⟨held, decide_eq_true different⟩⟩

theorem duplicate_iff (registered : Registered setting directory accepted)
    (reject : setting.mode = .rejectNew) {answer : OnlineAdmission}
    (answered : ((acquire lease (setting.policy lease) now).call directory).1 = .ok answer) :
    answer = .duplicate ↔ Rival directory now lease := by
  obtain ⟨valid, bounded⟩ := acquire_answered answered
  have mode : (setting.policy lease).duplicateLogin = .rejectNew := reject
  rw [← previous_isSome_iff registered reject]
  rw [acquire_eq valid bounded, mode] at answered
  constructor
  · rintro rfl
    by_contra unmet
    rw [if_neg (fun both => unmet both.2)] at answered
    split at answered
    · cases answered
    · cases answered
  · intro met
    rw [if_pos ⟨rfl, met⟩] at answered
    exact (Except.ok.inj answered).symm

end Operations

/-- What holds of the directory after every sequence of operations. -/
theorem directory_invariants {clock : Nat}
    (run : RunWhen (fun _ _ => True) (Step setting) (start clock) world) :
    (∀ realm maximum, setting.maximum realm = some maximum →
      (world.directory.capacity realm).card ≤ maximum) ∧
    (∀ operation : DirectoryOperation, operation.Purges → operation.Fresh world.clock →
      ∀ session, (world.perform operation).directory.Mentions session →
        (world.perform operation).directory.Live world.clock session) ∧
    (setting.mode = .rejectNew → (∀ (first second : Uuid) (older newer : SessionLease),
        world.directory.sessions[first]? = some older →
        world.directory.sessions[second]? = some newer →
        world.clock < older.expiresAt → world.clock < newer.expiresAt →
        older.identity.playerKey = newer.identity.playerKey → first = second) ∧
      ∀ lease answer, lease.identity = setting.identity lease.sessionId →
        ((acquire lease (setting.policy lease) world.clock).call world.directory).1 = .ok answer →
        (answer = .duplicate ↔ Rival world.directory world.clock lease)) ∧
    (setting.mode = .kickExisting →
      (∀ user session, (world.directory.purge world.clock).single user = some session ↔
        world.accepted user = some session ∧ world.directory.Live world.clock session) ∧
      (∀ lease reported, lease.identity = setting.identity lease.sessionId →
        ((acquire lease (setting.policy lease) world.clock).call world.directory).1 =
          .ok (.accepted reported) →
        reported = ((world.directory.purge world.clock).single lease.identity.playerKey).filter
          (· ≠ lease.sessionId)) ∧
      (∀ lease : SessionLease, lease.identity = setting.identity lease.sessionId →
        world.accepted lease.identity.playerKey ≠ some lease.sessionId →
        (world.directory.unregister lease).single = world.directory.single ∧
          ∀ other realm, other ≠ lease.sessionId →
            (other ∈ (world.directory.unregister lease).capacity realm ↔
              other ∈ world.directory.capacity realm)) ∧
      ∀ later user newer, world.clock ≤ later → world.accepted user = some newer →
        world.directory.Live later newer →
        (world.directory.purge later).single user = some newer ∧
          newer ∈ (world.directory.purge later).capacity (setting.identity newer).realmKey) := by
  have registered := registered_of_run run
  refine ⟨registered.bound, ?_, fun reject => ⟨?_, ?_⟩, fun kick => ?_⟩
  · exact fun operation purges fresh session mentioned => purging_live purges fresh mentioned
  · intro first second older newer found also _ _ same
    have held {session : Uuid} {lease : SessionLease}
        (found : world.directory.sessions[session]? = some lease) :
        world.directory.single lease.identity.playerKey = some session := by
      rw [registered.owner session lease found]
      refine registered.alone reject session ?_
      rw [← ExtTreeMap.isSome_getElem?_iff_mem, found]
      rfl
    have bound := held found
    rw [same, held also] at bound
    exact (Option.some.inj bound).symm
  · exact fun lease answer _ answered => duplicate_iff registered reject answered
  · have exclusive : setting.mode ≠ .allowMultiple := by
      rw [kick]
      nofun
    refine ⟨?_, ?_, ?_, ?_⟩
    · intro user session
      rw [(registered.purge world.clock).single exclusive, live_iff_mem_purge]
    · intro lease reported _ answered
      have mode : (setting.policy lease).duplicateLogin = .kickExisting := kick
      rcases acquire_cases lease (setting.policy lease) world.clock world.directory with
        ⟨error, outcome⟩ | outcome | outcome | ⟨_, _, outcome⟩ <;> rw [outcome] at answered
      · cases answered
      · cases answered
      · cases answered
      · rw [if_pos mode] at answered
        cases answered
        rfl
    · intro lease _ replaced
      have unbound : world.directory.single lease.identity.playerKey ≠ some lease.sessionId :=
        fun held => replaced ((registered.single exclusive _ _).mp held).1
      refine ⟨?_, fun other realm different =>
        world.directory.mem_capacity_unregister_of_ne different realm⟩
      unfold MemoryOnlineDirectory.unregister
      split
      · rfl
      · rfl
    · intro later user newer _ latest live
      have held := ((registered.purge later).single exclusive user newer).mpr
        ⟨latest, live_iff_mem_purge.mp live⟩
      exact ⟨held, (registered.purge later).slot exclusive user newer held⟩

section Sample

def kickSetting : PresenceSetting where
  mode := .kickExisting
  maximum := fun _ => some 1
  identity := fun _ => loginIdentity

def kickLease (sessionId : Uuid) (expiresAt : Nat) : SessionLease where
  sessionId
  gatewayId := "gateway"
  identity := loginIdentity
  expiresAt

def kickLogin (sessionId : Uuid) (expiresAt : Nat) : DirectoryOperation :=
  .acquire (kickLease sessionId expiresAt) (kickSetting.policy (kickLease sessionId expiresAt))

def replacedWorld : PresenceWorld :=
  ((start 0).perform (kickLogin 1 30)).perform (kickLogin 2 30)

theorem replaced_single : RunWhen (fun _ _ => True) (Step kickSetting) (start 0) replacedWorld ∧
    (replacedWorld.directory.capacity loginIdentity.realmKey).card ≤ 1 := by
  have run : RunWhen (fun _ _ => True) (Step kickSetting) (start 0) replacedWorld :=
    ((RunWhen.refl (start 0)).take (.perform (kickLogin 1 30) ⟨rfl, rfl⟩) trivial).take
      (.perform (kickLogin 2 30) ⟨rfl, rfl⟩) trivial
  exact ⟨run, (directory_invariants run).1 _ 1 rfl⟩

/-- A login whose lease has expired before it is written is not dropped by the
operation that writes it. -/
theorem expired_login_mentioned : kickSetting.Permits (kickLogin 1 0) ∧ (kickLogin 1 0).Purges ∧
    ((start 0).perform (kickLogin 1 0)).directory.Mentions 1 ∧
    ¬((start 0).perform (kickLogin 1 0)).directory.Live 0 1 := by
  have written : ((start 0).perform (kickLogin 1 0)).directory =
      (MemoryOnlineDirectory.new.purge 0).register (kickLease 1 0) .kickExisting := rfl
  refine ⟨⟨rfl, rfl⟩, ⟨rfl, nofun⟩, ?_, ?_⟩
  · rw [written]
    exact .inr (.inl ⟨loginIdentity.playerKey, single_register_kick _ (kickLease 1 0)⟩)
  · rintro ⟨lease, found, fresh⟩
    rw [written] at found
    cases found
    exact Nat.lt_irrefl 0 fresh

end Sample

end PresenceWorld

end Elura
