import Elura.Core.Credentials

/-!
Runs of the credential services: any number of clients and services that share one replay
protection store, with a clock that never goes back, ids never drawn twice and signatures nobody
else can make.
-/

namespace Elura

open List

variable {format : TokenFormat}
variable {token : String} {now : Nat} {issued : List (List UInt8 × Credential)}

theorem TicketService.validate_issued {service : TicketService} {claims : TicketClaims}
    (unforged : format.Unforged service.keys issued token)
    (valid : service.validate format token now = .ok claims) :
    ∃ key, (key, .ticket claims) ∈ issued := by
  obtain ⟨payload, opened, decoded, _⟩ := TicketService.validate_ok valid
  exact TokenFormat.openPayload_issued unforged opened format.decodeTicket_encode decoded

theorem HttpTokenService.validate_issued {service : HttpTokenService} {claims : HttpTokenClaims}
    (unforged : format.Unforged service.keys issued token)
    (valid : service.validate format token now = .ok claims) :
    ∃ key, (key, .http claims) ∈ issued := by
  obtain ⟨payload, opened, decoded, _⟩ := HttpTokenService.validate_ok valid
  exact TokenFormat.openPayload_issued unforged opened format.decodeHttp_encode decoded

inductive ClientState
  | idle
  | verified (claims : TicketClaims)
  | rotating (service : HttpTokenService) (claims : HttpTokenClaims)
  | reserved (service : HttpTokenService) (claims : HttpTokenClaims) (time : Nat)
  deriving DecidableEq, Repr

def ClientState.credential : ClientState → Option Credential
  | .idle => none
  | .verified claims => some (.ticket claims)
  | .rotating _ claims => some (.http claims)
  | .reserved _ claims _ => some (.http claims)

inductive CredentialRecord
  | consumed (claims : TicketClaims) (time : Nat)
  | rotated (claims : HttpTokenClaims) (time : Nat)
  deriving DecidableEq, Repr

namespace CredentialRecord

def credential : CredentialRecord → Credential
  | consumed claims _ => .ticket claims
  | rotated claims _ => .http claims

def time : CredentialRecord → Nat
  | consumed _ time => time
  | rotated _ time => time

end CredentialRecord

/-- `issued` lists what was signed, with the key; `log` the successful calls. -/
structure CredentialWorld (ι : Type) where
  clock : Nat
  drawn : Nat
  store : MemoryReplayProtectionStore
  issued : List (List UInt8 × Credential)
  clients : ι → ClientState
  log : List CredentialRecord

namespace CredentialWorld

variable {ι : Type} [DecidableEq ι]

def start (clock : Nat) : CredentialWorld ι where
  clock
  drawn := 0
  store := .new
  issued := []
  clients := fun _ => .idle
  log := []

def enter (world : CredentialWorld ι) (client : ι) (state : ClientState) : CredentialWorld ι :=
  { world with clients := Function.update world.clients client state }

theorem enter_self (world : CredentialWorld ι) (client : ι) (state : ClientState) :
    (world.enter client state).clients client = state :=
  Function.update_self _ _ _

theorem enter_of_ne (world : CredentialWorld ι) {client other : ι} (different : other ≠ client)
    (state : ClientState) : (world.enter client state).clients other = world.clients other :=
  Function.update_of_ne different _ _

def issueTicket (world : CredentialWorld ι) (service : TicketService) (claims : TicketClaims) :
    CredentialWorld ι :=
  { world with
    drawn := world.drawn + 1
    issued := (service.primaryKey, .ticket claims) :: world.issued }

def issueHttp (world : CredentialWorld ι) (service : HttpTokenService)
    (access refresh : HttpTokenClaims) (now : Nat) : CredentialWorld ι :=
  { world with
    clock := now
    drawn := world.drawn + 2
    issued := (service.primaryKey, .http refresh) :: (service.primaryKey, .http access) ::
      world.issued }

def consume (world : CredentialWorld ι) (client : ι) (claims : TicketClaims) :
    CredentialWorld ι :=
  match claims.consume world.store world.clock with
  | (.ok consumed, store) =>
    { world with store, log := .consumed consumed world.clock :: world.log }.enter client .idle
  | (.error _, store) => { world with store }.enter client .idle

def reserve (world : CredentialWorld ι) (client : ι) (service : HttpTokenService)
    (claims : HttpTokenClaims) : CredentialWorld ι :=
  match world.store.reserve claims.tokenId claims.expiresAt world.clock with
  | (true, store) => { world with store }.enter client (.reserved service claims world.clock)
  | (false, store) => { world with store }.enter client .idle

/-- One step of one client, or of the clock. A call that fails in any other way
than those shown leaves nothing behind but an idle client. -/
inductive Step (source : Nat → String) (format : TokenFormat) (world : CredentialWorld ι) :
    CredentialWorld ι → Prop
  | tick (later : Nat) (forward : world.clock ≤ later) :
      Step source format world { world with clock := later }
  | issueTicket (service : TicketService) (identity : Identity) (purpose : TicketPurpose)
      (claims : TicketClaims)
      (success : service.issueFor identity purpose (source world.drawn) world.clock = .ok claims) :
      Step source format world (world.issueTicket service claims)
  | issueHttp (service : HttpTokenService) (principal : Principal) (scopes : List String)
      (accessNow refreshNow : Nat) (access refresh : HttpTokenClaims)
      (forward : world.clock ≤ accessNow) (ordered : accessNow ≤ refreshNow)
      (success : service.issue principal scopes (source world.drawn) (source (world.drawn + 1))
        accessNow refreshNow = .ok (access, refresh)) :
      Step source format world (world.issueHttp service access refresh refreshNow)
  | validate (client : ι) (service : TicketService) (token : String) (claims : TicketClaims)
      (idle : world.clients client = .idle)
      (unforged : format.Unforged service.keys world.issued token)
      (success : service.validate format token world.clock = .ok claims) :
      Step source format world (world.enter client (.verified claims))
  | consume (client : ι) (claims : TicketClaims)
      (held : world.clients client = .verified claims) :
      Step source format world (world.consume client claims)
  | verifyRefresh (client : ι) (service : HttpTokenService) (token : String)
      (claims : HttpTokenClaims) (idle : world.clients client = .idle)
      (unforged : format.Unforged service.keys world.issued token)
      (success : service.verifyRefresh format token world.clock = .ok claims) :
      Step source format world (world.enter client (.rotating service claims))
  | reserve (client : ι) (service : HttpTokenService) (claims : HttpTokenClaims)
      (held : world.clients client = .rotating service claims) :
      Step source format world (world.reserve client service claims)
  | rotated (client : ι) (service : HttpTokenService) (claims : HttpTokenClaims) (time : Nat)
      (accessNow refreshNow : Nat) (access refresh : HttpTokenClaims)
      (held : world.clients client = .reserved service claims time)
      (forward : world.clock ≤ accessNow) (ordered : accessNow ≤ refreshNow)
      (success : service.issue claims.principal claims.scopes (source world.drawn)
        (source (world.drawn + 1)) accessNow refreshNow = .ok (access, refresh)) :
      Step source format world ({ world.issueHttp service access refresh refreshNow with
        log := .rotated claims time :: world.log }.enter client .idle)
  | abandon (client : ι) : Step source format world (world.enter client .idle)

def Reachable (source : Nat → String) (format : TokenFormat) :
    CredentialWorld ι → CredentialWorld ι → Prop :=
  Relation.ReflTransGen (Step source format)

structure Spent (issued : List (List UInt8 × Credential)) (store : MemoryReplayProtectionStore)
    (clock : Nat) (credential : Credential) (time : Nat) : Prop where
  issued : ∃ key, (key, credential) ∈ issued
  early : time < credential.expiresAt
  remembered : store.Remembers credential.id credential.expiresAt clock

structure Invariant (source : Nat → String) (world : CredentialWorld ι) : Prop where
  drawn : ∀ entry ∈ world.issued, ∃ index < world.drawn, entry.2.id = source index
  distinct : ∀ first ∈ world.issued, ∀ second ∈ world.issued,
    first.2.id = second.2.id → first.2 = second.2
  held : ∀ client credential, (world.clients client).credential = some credential →
    ∃ key, (key, credential) ∈ world.issued
  reserved : ∀ client service claims time, world.clients client = .reserved service claims time →
    Spent world.issued world.store world.clock (.http claims) time ∧
      ∀ record ∈ world.log, record.credential.id ≠ claims.tokenId
  exclusive : ∀ first second service other claims others time later,
    world.clients first = .reserved service claims time →
    world.clients second = .reserved other others later → first ≠ second →
    claims.tokenId ≠ others.tokenId
  spent : ∀ record ∈ world.log,
    Spent world.issued world.store world.clock record.credential record.time
  nodup : (world.log.map (fun record => record.credential.id)).Nodup

section Preservation

variable {source : Nat → String} {world : CredentialWorld ι} {client : ι}
variable {clock time : Nat} {credential : Credential} {key : List UInt8}
  {service : HttpTokenService}

omit [DecidableEq ι] in
theorem invariant_start (source : Nat → String) (clock : Nat) :
    Invariant source (start clock : CredentialWorld ι) where
  drawn := nofun
  distinct := nofun
  held := nofun
  reserved := nofun
  exclusive := nofun
  spent := nofun
  nodup := List.nodup_nil

theorem Spent.mono {issued more : List (List UInt8 × Credential)}
    {store : MemoryReplayProtectionStore} {later : Nat}
    (spent : Spent issued store clock credential time) (subset : ∀ entry ∈ issued, entry ∈ more)
    (forward : clock ≤ later) : Spent more store later credential time := by
  obtain ⟨key, member⟩ := spent.issued
  exact ⟨⟨key, subset _ member⟩, spent.early, spent.remembered.later forward⟩

omit [DecidableEq ι] in
theorem Invariant.tick (invariant : Invariant source world) {later : Nat}
    (forward : world.clock ≤ later) : Invariant source { world with clock := later } where
  drawn := invariant.drawn
  distinct := invariant.distinct
  held := invariant.held
  reserved := fun client service claims time known =>
    have kept := invariant.reserved client service claims time known
    ⟨kept.1.mono (fun _ => id) forward, kept.2⟩
  exclusive := invariant.exclusive
  spent := fun record member =>
    (invariant.spent record member).mono (fun _ => id) forward
  nodup := invariant.nodup

omit [DecidableEq ι] in
theorem Invariant.issue (injective : Function.Injective source) (invariant : Invariant source world)
    (named : credential.id = source world.drawn) (key : List UInt8) :
    Invariant source { world with
      drawn := world.drawn + 1
      issued := (key, credential) :: world.issued } := by
  have subset : ∀ entry ∈ world.issued, entry ∈ (key, credential) :: world.issued :=
    fun _ member => mem_cons_of_mem _ member
  have fresh : ∀ entry ∈ world.issued, entry.2.id ≠ credential.id := by
    intro entry member same
    obtain ⟨index, earlier, drawn⟩ := invariant.drawn entry member
    have equal := injective (drawn.symm.trans (same.trans named))
    omega
  refine ⟨?_, ?_, ?_, ?_, invariant.exclusive, ?_, invariant.nodup⟩
  · intro entry member
    rcases mem_cons.mp member with rfl | old
    · exact ⟨world.drawn, Nat.lt_succ_self _, named⟩
    · obtain ⟨index, earlier, drawn⟩ := invariant.drawn entry old
      exact ⟨index, Nat.lt_succ_of_lt earlier, drawn⟩
  · intro first firstMember second secondMember same
    rcases mem_cons.mp firstMember with rfl | firstOld
    · rcases mem_cons.mp secondMember with rfl | secondOld
      · rfl
      · exact absurd same.symm (fresh second secondOld)
    · rcases mem_cons.mp secondMember with rfl | secondOld
      · exact absurd same (fresh first firstOld)
      · exact invariant.distinct first firstOld second secondOld same
  · intro client held known
    obtain ⟨heldKey, member⟩ := invariant.held client held known
    exact ⟨heldKey, subset _ member⟩
  · intro client service claims time known
    have kept := invariant.reserved client service claims time known
    exact ⟨kept.1.mono subset le_rfl, kept.2⟩
  · exact fun record member => (invariant.spent record member).mono subset le_rfl

section

variable (invariant : Invariant source world)
include invariant

theorem Invariant.enter {state : ClientState}
    (known : ∀ credential, state.credential = some credential →
      ∃ key, (key, credential) ∈ world.issued)
    (unreserved : ∀ service claims time, state ≠ .reserved service claims time) :
    Invariant source (world.enter client state) := by
  have older : ∀ other service claims time,
      (world.enter client state).clients other = .reserved service claims time →
      world.clients other = .reserved service claims time := by
    intro other service claims time reserved
    by_cases same : other = client
    · rw [same, enter_self] at reserved
      exact absurd reserved (unreserved _ _ _)
    · rwa [enter_of_ne _ same] at reserved
  refine ⟨invariant.drawn, invariant.distinct, ?_, ?_, ?_, invariant.spent, invariant.nodup⟩
  · intro other credential held
    by_cases same : other = client
    · rw [same, enter_self] at held
      exact known credential held
    · rw [enter_of_ne _ same] at held
      exact invariant.held other credential held
  · intro other service claims time reserved
    exact invariant.reserved other service claims time (older _ _ _ _ reserved)
  · intro first second service other claims others time later firstReserved secondReserved
    exact invariant.exclusive first second service other claims others time later
      (older _ _ _ _ firstReserved) (older _ _ _ _ secondReserved)

theorem Invariant.enter_idle :
    Invariant source (world.enter client .idle) :=
  invariant.enter nofun nofun

section

variable (member : (key, credential) ∈ world.issued)
include member

omit [DecidableEq ι] in
theorem Invariant.spent_ne
    (accepted : (world.store.reserve credential.id credential.expiresAt world.clock).1 = true)
    {used : Credential} (spent : Spent world.issued world.store world.clock used time) :
    used.id ≠ credential.id := by
  intro same
  obtain ⟨usedKey, usedMember⟩ := spent.issued
  obtain rfl := invariant.distinct _ usedMember _ member same
  exact (MemoryReplayProtectionStore.reserve_fresh accepted).2 spent.remembered

omit [DecidableEq ι] in
theorem Invariant.spent_reserve {used : Credential}
    (spent : Spent world.issued world.store world.clock used time) :
    Spent world.issued
      (world.store.reserve credential.id credential.expiresAt world.clock).2 world.clock used
      time := by
  refine ⟨spent.issued, spent.early, spent.remembered.reserve ?_⟩
  intro same
  obtain ⟨usedKey, usedMember⟩ := spent.issued
  obtain rfl := invariant.distinct _ usedMember _ member same.symm
  rfl

omit [DecidableEq ι] in
theorem Invariant.reserveStore :
    Invariant source { world with
      store := (world.store.reserve credential.id credential.expiresAt world.clock).2 } where
  drawn := invariant.drawn
  distinct := invariant.distinct
  held := invariant.held
  reserved := fun client service claims time known =>
    have kept := invariant.reserved client service claims time known
    ⟨invariant.spent_reserve member kept.1, kept.2⟩
  exclusive := invariant.exclusive
  spent := fun record recorded => invariant.spent_reserve member (invariant.spent record recorded)
  nodup := invariant.nodup

end

end

theorem spent_of_reserved {issued : List (List UInt8 × Credential)}
    {store : MemoryReplayProtectionStore} (member : (key, credential) ∈ issued)
    (accepted : (store.reserve credential.id credential.expiresAt clock).1 = true) :
    Spent issued (store.reserve credential.id credential.expiresAt clock).2 clock credential
      clock :=
  ⟨⟨key, member⟩, (MemoryReplayProtectionStore.reserve_fresh accepted).1,
    MemoryReplayProtectionStore.reserve_remembers accepted⟩

omit [DecidableEq ι] in
theorem Invariant.record (invariant : Invariant source world) {record : CredentialRecord}
    (member : (key, record.credential) ∈ world.issued) (now : record.time = world.clock)
    (accepted : (world.store.reserve record.credential.id record.credential.expiresAt
      world.clock).1 = true) :
    Invariant source { world with
      store := (world.store.reserve record.credential.id record.credential.expiresAt world.clock).2
      log := record :: world.log } := by
  have stored := invariant.reserveStore member
  have unused : ∀ earlier ∈ world.log, earlier.credential.id ≠ record.credential.id :=
    fun earlier recorded => invariant.spent_ne member accepted (invariant.spent earlier recorded)
  refine ⟨stored.drawn, stored.distinct, stored.held, ?_, stored.exclusive, ?_, ?_⟩
  · intro client service claims time known
    refine ⟨(stored.reserved client service claims time known).1, ?_⟩
    intro other recorded
    rcases mem_cons.mp recorded with rfl | old
    · exact (invariant.spent_ne member accepted
        (invariant.reserved client service claims time known).1).symm
    · exact (invariant.reserved client service claims time known).2 other old
  · intro other recorded
    rcases mem_cons.mp recorded with rfl | old
    · rw [now]
      exact spent_of_reserved member accepted
    · exact stored.spent other old
  · refine nodup_cons.mpr ⟨fun used => ?_, invariant.nodup⟩
    obtain ⟨earlier, recorded, same⟩ := mem_map.mp used
    exact unused earlier recorded same

theorem consume_eq (world : CredentialWorld ι) (client : ι) (claims : TicketClaims) :
    world.consume client claims =
      (if (world.store.reserve claims.ticketId claims.expiresAt world.clock).1 then
        { world with
          store := (world.store.reserve claims.ticketId claims.expiresAt world.clock).2
          log := .consumed claims world.clock :: world.log }
      else { world with
        store := (world.store.reserve claims.ticketId claims.expiresAt world.clock).2 }).enter
          client .idle := by
  unfold CredentialWorld.consume TicketClaims.consume
  rcases world.store.reserve claims.ticketId claims.expiresAt world.clock with ⟨_ | _, store⟩
  · rfl
  · rfl

theorem reserve_eq (world : CredentialWorld ι) (client : ι) (service : HttpTokenService)
    (claims : HttpTokenClaims) :
    world.reserve client service claims = { world with
      store := (world.store.reserve claims.tokenId claims.expiresAt world.clock).2 }.enter client
        (if (world.store.reserve claims.tokenId claims.expiresAt world.clock).1 then
          .reserved service claims world.clock else .idle) := by
  unfold CredentialWorld.reserve
  rcases world.store.reserve claims.tokenId claims.expiresAt world.clock with ⟨_ | _, store⟩
  · rfl
  · rfl

section

variable (invariant : Invariant source world)
include invariant

theorem Invariant.consume {claims : TicketClaims}
    (held : world.clients client = .verified claims) :
    Invariant source (world.consume client claims) := by
  obtain ⟨key, member⟩ := invariant.held client (.ticket claims) (by rw [held]; rfl)
  rw [consume_eq]
  refine Invariant.enter_idle ?_
  split
  · rename_i accepted
    exact @Invariant.record _ source world key invariant (.consumed claims world.clock) member rfl
      accepted
  · exact invariant.reserveStore member

theorem Invariant.enter_reserved {claims : HttpTokenClaims}
    (spent : Spent world.issued world.store world.clock (.http claims) time)
    (unused : ∀ record ∈ world.log, record.credential.id ≠ claims.tokenId)
    (alone : ∀ other service others later,
      world.clients other = .reserved service others later → others.tokenId ≠ claims.tokenId) :
    Invariant source (world.enter client (.reserved service claims time)) := by
  refine ⟨invariant.drawn, invariant.distinct, ?_, ?_, ?_, invariant.spent, invariant.nodup⟩
  · intro other credential held
    by_cases same : other = client
    · rw [same, enter_self] at held
      cases held
      exact spent.issued
    · rw [enter_of_ne _ same] at held
      exact invariant.held other credential held
  · intro other owner others later reserved
    by_cases same : other = client
    · rw [same, enter_self] at reserved
      cases reserved
      exact ⟨spent, unused⟩
    · rw [enter_of_ne _ same] at reserved
      exact invariant.reserved other owner others later reserved
  · intro first second owner other ones others firstTime secondTime firstReserved secondReserved
      different
    by_cases firstSame : first = client
    · have secondOther : second ≠ client := fun same => different (firstSame.trans same.symm)
      rw [firstSame, enter_self] at firstReserved
      rw [enter_of_ne _ secondOther] at secondReserved
      cases firstReserved
      exact (alone second other others secondTime secondReserved).symm
    · rw [enter_of_ne _ firstSame] at firstReserved
      by_cases secondSame : second = client
      · rw [secondSame, enter_self] at secondReserved
        cases secondReserved
        exact alone first owner ones firstTime firstReserved
      · rw [enter_of_ne _ secondSame] at secondReserved
        exact invariant.exclusive first second owner other ones others firstTime secondTime
          firstReserved secondReserved different

theorem Invariant.reserve {claims : HttpTokenClaims}
    (held : world.clients client = .rotating service claims) :
    Invariant source (world.reserve client service claims) := by
  obtain ⟨key, member⟩ := invariant.held client (.http claims) (by rw [held]; rfl)
  have stored := invariant.reserveStore member
  rw [reserve_eq]
  split
  · rename_i accepted
    refine Invariant.enter_reserved stored (spent_of_reserved member accepted) ?_ ?_
    · exact fun record recorded =>
        invariant.spent_ne member accepted (invariant.spent record recorded)
    · exact fun other service others later reserved =>
        invariant.spent_ne member accepted (invariant.reserved other service others later reserved).1
  · exact Invariant.enter_idle stored

theorem Invariant.rotated {claims : HttpTokenClaims}
    (held : world.clients client = .reserved service claims time) :
    Invariant source ({ world with log := .rotated claims time :: world.log }.enter client
      .idle) := by
  have settled := @Invariant.enter_idle _ _ _ _ client invariant
  obtain ⟨spent, unused⟩ := invariant.reserved client service claims time held
  refine ⟨settled.drawn, settled.distinct, settled.held, ?_, settled.exclusive, ?_, ?_⟩
  · intro other owner others later reserved
    refine ⟨(settled.reserved other owner others later reserved).1, ?_⟩
    intro record recorded
    rcases mem_cons.mp recorded with rfl | old
    · have different : client ≠ other := by
        rintro rfl
        rw [enter_self] at reserved
        cases reserved
      rw [enter_of_ne _ different.symm] at reserved
      exact invariant.exclusive client other service owner claims others time later held reserved
        different
    · exact (settled.reserved other owner others later reserved).2 record old
  · intro record recorded
    rcases mem_cons.mp recorded with rfl | old
    · exact spent
    · exact invariant.spent record old
  · refine nodup_cons.mpr ⟨fun used => ?_, invariant.nodup⟩
    obtain ⟨earlier, recorded, same⟩ := mem_map.mp used
    exact unused earlier recorded same

end

omit [DecidableEq ι] in
theorem Invariant.issueHttp (injective : Function.Injective source)
    (invariant : Invariant source world) {principal : Principal} {scopes : List String}
    {accessNow refreshNow : Nat} {access refresh : HttpTokenClaims}
    (forward : world.clock ≤ refreshNow)
    (success : service.issue principal scopes (source world.drawn) (source (world.drawn + 1))
      accessNow refreshNow = .ok (access, refresh)) :
    Invariant source (world.issueHttp service access refresh refreshNow) := by
  obtain ⟨_, _, rest⟩ := bind_ok success
  obtain ⟨normalized, _, rest⟩ := bind_ok rest
  cases rest
  exact ((invariant.tick forward).issue injective rfl service.primaryKey).issue injective rfl
    service.primaryKey

theorem Step.invariant (injective : Function.Injective source) {after : CredentialWorld ι}
    (step : Step source format world after) (invariant : Invariant source world) :
    Invariant source after := by
  cases step with
  | tick _ forward => exact invariant.tick forward
  | issueTicket service _ _ _ success =>
    obtain ⟨_, _, rest⟩ := bind_ok success
    cases rest
    exact invariant.issue injective rfl service.primaryKey
  | issueHttp _ _ _ _ _ _ _ forward ordered success =>
    exact invariant.issueHttp injective (Nat.le_trans forward ordered) success
  | validate _ _ _ _ _ unforged success =>
    refine invariant.enter ?_ nofun
    rintro credential ⟨⟩
    exact TicketService.validate_issued unforged success
  | consume _ _ held => exact invariant.consume held
  | verifyRefresh _ _ _ _ _ unforged success =>
    refine invariant.enter ?_ nofun
    rintro credential ⟨⟩
    obtain ⟨read, checked, rest⟩ := bind_ok success
    split_ifs at rest
    cases rest
    exact HttpTokenService.validate_issued unforged checked
  | reserve _ _ _ held => exact invariant.reserve held
  | rotated _ _ _ _ _ _ _ _ held forward ordered success =>
    exact (invariant.issueHttp injective (Nat.le_trans forward ordered) success).rotated held
  | abandon => exact invariant.enter_idle

theorem Reachable.invariant (injective : Function.Injective source)
    (run : Reachable source format (start clock) world) : Invariant source world := by
  induction run with
  | refl => exact invariant_start source clock
  | tail _ step ih => exact step.invariant injective ih

/-- No id is used by two successful calls, and every successful call made its
reservation before the credential's expiry. -/
theorem credentials_singleUse (injective : Function.Injective source) {clock : Nat}
    (run : Reachable source format (start clock) world) :
    (world.log.map (fun record => record.credential.id)).Nodup ∧
      ∀ record ∈ world.log, record.time < record.credential.expiresAt := by
  have invariant := run.invariant injective
  exact ⟨invariant.nodup, fun record member => (invariant.spent record member).early⟩

section Login

def countedId (index : Nat) : String :=
  String.ofList (List.replicate index 'x')

theorem countedId_injective : Function.Injective countedId := by
  intro left right same
  have lengths := congrArg String.length same
  simpa [countedId] using lengths

theorem login_consumed : ∃ world : CredentialWorld Unit,
    Reachable countedId loginFormat (start 100) world ∧
      world.log = [.consumed loginClaims 100] ∧
      (world.log.map (fun record => record.credential.id)).Nodup ∧
      ∀ record ∈ world.log, record.time < record.credential.expiresAt := by
  let issued := (start 100 : CredentialWorld Unit).issueTicket loginService loginClaims
  have first : Reachable countedId loginFormat (start 100) issued :=
    .single (.issueTicket loginService loginIdentity .login loginClaims (by decide))
  have unforged : loginFormat.Unforged loginService.keys issued.issued "login.signature" := by
    intro payload signature parted key member _
    have parts : splitOnce "login.signature" '.' = some ("login", "signature") := by decide
    rw [parts] at parted
    cases parted
    cases mem_singleton.mp member
    exact ⟨.ticket loginClaims, mem_singleton.mpr rfl, by decide⟩
  let verified := issued.enter () (.verified loginClaims)
  have second : Reachable countedId loginFormat (start 100) verified :=
    first.tail (.validate () loginService "login.signature" loginClaims rfl unforged (by decide))
  have third := second.tail (.consume () loginClaims rfl)
  refine ⟨_, third, ?_, credentials_singleUse countedId_injective third⟩
  have accepted : (verified.store.reserve loginClaims.ticketId loginClaims.expiresAt
      verified.clock).1 = true := MemoryReplayProtectionStore.reserve_new _ (by decide : 100 < 160)
  rw [consume_eq]
  rfl

end Login

end Preservation

end CredentialWorld

end Elura
