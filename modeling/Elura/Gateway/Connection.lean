import Elura.Gateway.Presence

/-!
How a gateway connection authenticates its session: the ticket is checked, the session entered
into the online directory, and only then the ticket consumed. Whoever was displaced in between
stays displaced.
-/

namespace Elura

open Fallible Option MemoryOnlineDirectory

inductive SessionState
  | anonymous
  | authenticated
  | closed
  deriving DecidableEq, Repr

structure Gateway.Session where
  id : Uuid
  state : SessionState
  identity : Option Identity
  deriving DecidableEq, Repr

namespace Gateway.Session

def new (id : Uuid) : Gateway.Session where
  id
  state := .anonymous
  identity := none

def authenticate (session : Gateway.Session) (identity : Identity) :
    Except Error Gateway.Session := do
  identity.validate
  if session.state ≠ .anonymous then .error .authentication
  else return { session with identity := some identity, state := .authenticated }

def close (session : Gateway.Session) : Gateway.Session :=
  { session with state := .closed }

end Gateway.Session

structure RealmCapacityLimit where
  regionId : UInt32
  realmId : UInt32
  maxSessions : Nat
  deriving DecidableEq, Repr

structure GatewayOnlineConfig where
  gatewayId : String
  leaseTtl : Duration
  duplicateLogin : DuplicateLoginMode
  realmCapacities : List RealmCapacityLimit
  fullRetryAfter : Duration
  deriving DecidableEq, Repr

def GatewayOnlineConfig.maxSessions (online : GatewayOnlineConfig) (regionId realmId : UInt32) :
    Option Nat :=
  (online.realmCapacities.find? (fun limit =>
    limit.regionId = regionId && limit.realmId = realmId)).map (·.maxSessions)

structure ConnectionContext where
  format : TokenFormat
  tickets : TicketService
  online : Option GatewayOnlineConfig

/-- What the connections of a gateway share, and the session of one of them. Times
are in nanoseconds. -/
structure Gateway where
  session : Gateway.Session
  directory : MemoryOnlineDirectory
  store : MemoryReplayProtectionStore

def GatewayOnlineConfig.lease (online : GatewayOnlineConfig) (session : Uuid)
    (identity : Identity) (now : Nat) : SessionLease where
  sessionId := session
  gatewayId := online.gatewayId
  identity
  expiresAt := now + online.leaseTtl

def GatewayOnlineConfig.policy (online : GatewayOnlineConfig) (identity : Identity) :
    OnlineAdmissionPolicy where
  duplicateLogin := online.duplicateLogin
  maxSessions := online.maxSessions identity.regionId identity.realmId

structure ReconnectTicketResponse where
  ticket : TicketClaims
  expiresInSeconds : Nat
  deriving DecidableEq, Repr

structure AuthenticateResponse where
  sessionId : Uuid
  identity : Identity
  reconnect : ReconnectTicketResponse
  deriving DecidableEq, Repr

/-- What an `authenticate` call is told from outside: the request, the decisions of
the admission and account version policies, and its readings of the clock. -/
structure AuthenticateCall where
  request : Except Error String
  validatedAt : Nat
  admission : Except Error Unit
  version : Except Error Unit
  leaseAt : Nat
  acquiredAt : Nat
  consumedAt : Nat
  removedAt : Nat
  reconnectId : String
  reconnectAt : Nat

namespace ConnectionContext

def admitOnline (context : ConnectionContext) (session : Uuid) (identity : Identity)
    (leaseAt now : Nat) : Fallible MemoryOnlineDirectory Error (List Uuid) :=
  match context.online with
  | none => return []
  | some online => do
      let policy ← liftM (OnlineAdmissionPolicy.new (online.policy identity).duplicateLogin
        (online.policy identity).maxSessions)
      match ← MemoryOnlineDirectory.acquire (online.lease session identity leaseAt) policy now with
      | .accepted previousSession => return previousSession.toList
      | .duplicate => throw .duplicateSession
      | .realmFull => throw (.admissionDenied "realm_full" "the selected realm is at capacity"
          (min (online.fullRetryAfter / 1000000) u64Max))

def removeOnline (context : ConnectionContext) (session : Uuid) (identity : Identity)
    (now : Nat) (directory : MemoryOnlineDirectory) : MemoryOnlineDirectory :=
  match context.online with
  | none => directory
  | some online => directory.unregister (online.lease session identity now)

def verifyTicket (context : ConnectionContext) (session : Gateway.Session)
    (request : Except Error String) (now : Nat) : Except Error TicketClaims :=
  if session.identity.isSome then .error .authentication
  else do
    let ticket ← request
    context.tickets.validate context.format ticket (Duration.asSecs now)

def verify (context : ConnectionContext) (call : AuthenticateCall) (session : Gateway.Session) :
    Except Error TicketClaims := do
  let claims ← context.verifyTicket session call.request call.validatedAt
  call.admission
  call.version
  return claims

def issueReconnect (context : ConnectionContext) (identity : Identity) (id : String) (now : Nat) :
    Except Error ReconnectTicketResponse := do
  let ticket ← context.tickets.issueFor identity .reconnect id (Duration.asSecs now)
  return { ticket, expiresInSeconds := context.tickets.reconnectTtl.asSecs }

/-- What a verified login does: the session enters the online directory, the ticket
is consumed, and the session is authenticated. The messages to other gateways and
to a displaced session change nothing here. -/
def enter (context : ConnectionContext) (call : AuthenticateCall) (gateway : Gateway)
    (claims : TicketClaims) : Except Error AuthenticateResponse × Gateway :=
  match (context.admitOnline gateway.session.id claims.identity call.leaseAt
    call.acquiredAt).call gateway.directory with
  | (.error error, directory) => (.error error, { gateway with directory })
  | (.ok _, directory) =>
    match claims.consume gateway.store (Duration.asSecs call.consumedAt) with
    | (.error error, store) => (.error error, { gateway with
        store
        directory := context.removeOnline gateway.session.id claims.identity call.removedAt
          directory })
    | (.ok consumed, store) =>
      match gateway.session.authenticate consumed.identity with
      | .error error => (.error error, { gateway with store, directory })
      | .ok session =>
        match context.issueReconnect consumed.identity call.reconnectId
          call.reconnectAt with
        | .error error => (.error error, { session, store, directory })
        | .ok reconnect => (.ok {
            sessionId := session.id
            identity := consumed.identity
            reconnect }, { session, store, directory })

def authenticate (context : ConnectionContext) (call : AuthenticateCall) (gateway : Gateway) :
    Except Error AuthenticateResponse × Gateway :=
  match context.verify call gateway.session with
  | .error error => (.error error, gateway)
  | .ok claims => context.enter call gateway claims

section Isolation

open MemoryOnlineDirectory (SameOthers)

variable {context : ConnectionContext}
variable {now : Nat} {claims : TicketClaims} {call : AuthenticateCall}

theorem admitOnline_cases (context : ConnectionContext) (session : Uuid) (identity : Identity)
    (leaseAt now : Nat) (directory : MemoryOnlineDirectory) :
    (∃ error after, (context.admitOnline session identity leaseAt now).call directory =
        (.error error, after) ∧ (after = directory ∨ after = directory.purge now)) ∨
      context.online = none ∧
        (context.admitOnline session identity leaseAt now).call directory = (.ok [], directory) ∨
      ∃ online, context.online = some online ∧ (online.policy identity).maxSessions ≠ some 0 ∧
        (online.duplicateLogin = .rejectNew → (directory.purge now).previous
          (online.lease session identity leaseAt) = none) ∧
        (directory.purge now).full (online.lease session identity leaseAt)
          (online.policy identity) = false ∧
        (context.admitOnline session identity leaseAt now).call directory =
          (.ok (if online.duplicateLogin = .kickExisting then (directory.purge now).previous
              (online.lease session identity leaseAt) else none).toList,
            (directory.purge now).register (online.lease session identity leaseAt)
              online.duplicateLogin) := by
  unfold admitOnline
  cases configured : context.online with
  | none => exact .inr (.inl ⟨rfl, rfl⟩)
  | some online =>
    simp only [call_bind, call_liftExcept, OnlineAdmissionPolicy.new]
    by_cases unbounded : (online.policy identity).maxSessions = some 0
    · rw [if_pos unbounded]
      exact .inl ⟨_, directory, rfl, .inl rfl⟩
    · rw [if_neg unbounded]
      rcases acquire_cases (online.lease session identity leaseAt)
        (online.policy identity) now directory with
        ⟨error, failed⟩ | duplicate | full | ⟨alone, room, accepted⟩
      · exact .inl ⟨error, directory, by simp only [failed], .inl rfl⟩
      · exact .inl ⟨_, _, by simp only [duplicate]; rfl, .inr rfl⟩
      · exact .inl ⟨_, _, by simp only [full]; rfl, .inr rfl⟩
      · exact .inr (.inr ⟨online, rfl, unbounded, alone, room,
          by simp only [accepted]; rfl⟩)

/-- The call is made for a session of a user whose login another live session
holds, nothing before the directory refuses it, and the realm has room once the
other session has left. -/
def Displaces (context : ConnectionContext) (call : AuthenticateCall) (gateway : Gateway) : Prop :=
  ∃ claims online other, context.verify call gateway.session = .ok claims ∧
    context.online = some online ∧ online.duplicateLogin = .kickExisting ∧
    (online.policy claims.identity).maxSessions ≠ some 0 ∧
    (gateway.directory.purge call.acquiredAt).previous
      (online.lease gateway.session.id claims.identity call.leaseAt) = some other ∧
    (gateway.directory.purge call.acquiredAt).full
      (online.lease gateway.session.id claims.identity call.leaseAt)
      (online.policy claims.identity) = false

theorem verifyTicket_ok {session : Gateway.Session} {request : Except Error String}
    (verified : context.verifyTicket session request now = .ok claims) :
    session.identity = none ∧ claims.identity.validate = .ok () := by
  unfold verifyTicket at verified
  split at verified
  · cases verified
  · rename_i anonymous
    obtain ⟨ticket, _, valid⟩ := bind_ok verified
    obtain ⟨_, _, _, _, identity⟩ := TicketService.validate_ok valid
    exact ⟨not_isSome_iff_eq_none.mp anonymous, identity⟩

theorem verify_identity {session : Gateway.Session}
    (verified : context.verify call session = .ok claims) : claims.identity.validate = .ok () := by
  obtain ⟨read, valid, rest⟩ := bind_ok verified
  obtain ⟨_, _, rest⟩ := bind_ok rest
  obtain ⟨_, _, rest⟩ := bind_ok rest
  cases rest
  exact (verifyTicket_ok valid).2

theorem admitOnline_accepts {session : Uuid} {identity : Identity} {leaseAt : Nat}
    {directory : MemoryOnlineDirectory} {online : GatewayOnlineConfig}
    (configured : context.online = some online) (kick : online.duplicateLogin = .kickExisting)
    (valid : identity.validate = .ok ()) (bounded : (online.policy identity).maxSessions ≠ some 0)
    (room : (directory.purge now).full (online.lease session identity leaseAt)
      (online.policy identity) = false) :
    ∃ previous, (context.admitOnline session identity leaseAt now).call directory =
      (.ok previous, (directory.purge now).register (online.lease session identity leaseAt)
        .kickExisting) := by
  have accepted := @acquire_eq (online.lease session identity leaseAt)
    (online.policy identity) now valid bounded directory
  rw [if_neg (by simp [GatewayOnlineConfig.policy, kick]), if_neg (by simp [room])] at accepted
  unfold admitOnline
  rw [configured]
  simp only [call_bind, call_liftExcept, OnlineAdmissionPolicy.new,
    if_neg bounded, accepted]
  exact ⟨_, by rw [show (online.policy identity).duplicateLogin = .kickExisting from kick]; rfl⟩

theorem register_sameOthers_iff {session : Uuid} {identity : Identity} {leaseAt : Nat}
    {directory : MemoryOnlineDirectory} {online : GatewayOnlineConfig}
    (reject : online.duplicateLogin = .rejectNew →
      (directory.purge now).previous (online.lease session identity leaseAt) = none) :
    (∀ later, now ≤ later → SameOthers session later directory
      ((directory.purge now).register (online.lease session identity leaseAt)
        online.duplicateLogin)) ↔
      ¬(online.duplicateLogin = .kickExisting ∧
        ∃ other, (directory.purge now).previous (online.lease session identity leaseAt) =
          some other) := by
  constructor
  · rintro same ⟨kick, other, met⟩
    have taken := same now le_rfl
    rw [kick] at taken
    obtain ⟨bound, different⟩ := filter_eq_some_iff.mp met
    have mine := (taken.single other (of_decide_eq_true different)
      (online.lease session identity leaseAt).identity.playerKey).mpr bound
    rw [single_purge, single_register_kick] at mine
    exact of_decide_eq_true different (some.inj mine.1).symm
  · intro kept later forward
    refine (SameOthers.purge session directory forward).trans ?_
    refine @SameOthers.register (directory.purge now) (online.lease session identity leaseAt)
      online.duplicateLogin later ?_
    cases mode : online.duplicateLogin with
    | allowMultiple => exact .inl rfl
    | rejectNew => exact .inr (reject mode)
    | kickExisting =>
      refine .inr (eq_none_iff_forall_ne_some.mpr ?_)
      exact fun other met => kept ⟨mode, other, met⟩

theorem authenticate_directory (context : ConnectionContext) (call : AuthenticateCall)
    (gateway : Gateway) :
    (∀ claims, context.verify call gateway.session = .ok claims →
      ∃ refusal, ((context.admitOnline gateway.session.id claims.identity call.leaseAt
        call.acquiredAt).call gateway.directory).1 = .error refusal) ∧
        ((context.authenticate call gateway).2.directory = gateway.directory ∨
          (context.authenticate call gateway).2.directory =
            gateway.directory.purge call.acquiredAt) ∨
      ∃ claims previous admitted, context.verify call gateway.session = .ok claims ∧
        (context.admitOnline gateway.session.id claims.identity call.leaseAt
          call.acquiredAt).call gateway.directory = (.ok previous, admitted) ∧
        ((context.authenticate call gateway).2.directory = admitted ∨
          (context.authenticate call gateway).2.directory =
            context.removeOnline gateway.session.id claims.identity call.removedAt admitted) := by
  unfold authenticate enter
  cases verified : context.verify call gateway.session with
  | error => exact .inl ⟨fun _ impossible => (nomatch impossible), .inl rfl⟩
  | ok claims =>
    simp only
    rcases asked : (context.admitOnline gateway.session.id claims.identity call.leaseAt
      call.acquiredAt).call gateway.directory with ⟨refusal | previous, admitted⟩
    · refine .inl ⟨?_, ?_⟩
      · rintro _ ⟨⟩
        exact ⟨refusal, by rw [asked]⟩
      · rcases context.admitOnline_cases gateway.session.id claims.identity call.leaseAt
          call.acquiredAt gateway.directory with
          ⟨_, after, refused, left⟩ | ⟨_, accepted⟩ | ⟨_, _, _, _, _, accepted⟩
        · rw [asked] at refused
          cases refused
          exact left
        all_goals
          rw [asked] at accepted
          cases accepted
    · refine .inr ⟨claims, previous, admitted, rfl, asked, ?_⟩
      simp only
      split
      · exact .inr rfl
      · split
        · exact .inl rfl
        · split
          · exact .inl rfl
          · exact .inl rfl

theorem admitted_sameOthers_iff {gateway : Gateway} {previous : List Uuid}
    {admitted : MemoryOnlineDirectory} (verified : context.verify call gateway.session = .ok claims)
    (asked : (context.admitOnline gateway.session.id claims.identity call.leaseAt
      call.acquiredAt).call gateway.directory = (.ok previous, admitted)) :
    (∀ now, call.acquiredAt ≤ now →
      SameOthers gateway.session.id now gateway.directory admitted) ↔
      ¬context.Displaces call gateway := by
  rcases context.admitOnline_cases gateway.session.id claims.identity call.leaseAt
    call.acquiredAt gateway.directory with
    ⟨_, _, refused, _⟩ | ⟨offline, accepted⟩ |
      ⟨online, configured, bounded, reject, room, accepted⟩
  · rw [asked] at refused
    cases refused
  · rw [asked] at accepted
    cases accepted
    refine iff_of_true (fun now _ => .refl _ _ _) ?_
    rintro ⟨_, online, _, _, configured, _⟩
    rw [offline] at configured
    cases configured
  · rw [asked] at accepted
    cases accepted
    rw [register_sameOthers_iff reject]
    refine not_congr ⟨?_, ?_⟩
    · rintro ⟨kick, other, met⟩
      exact ⟨claims, online, other, verified, configured, kick, bounded, met, room⟩
    · rintro ⟨others, chosen, other, same, chosenConfigured, kick, _, met, _⟩
      cases verified.symm.trans same
      cases configured.symm.trans chosenConfigured
      exact ⟨kick, other, met⟩

/-- A call, failed or not, leaves the other sessions as they were exactly when it
does not displace one of them from the directory. -/
theorem login_isolated_iff (context : ConnectionContext) (call : AuthenticateCall)
    (gateway : Gateway) :
    (∀ now, call.acquiredAt ≤ now → SameOthers gateway.session.id now gateway.directory
      (context.authenticate call gateway).2.directory) ↔ ¬context.Displaces call gateway := by
  rcases context.authenticate_directory call gateway with
    ⟨refused, left⟩ | ⟨claims, previous, admitted, verified, asked, left⟩
  · refine iff_of_true (fun now forward => ?_) ?_
    · rcases left with unchanged | purged
      · rw [unchanged]
        exact .refl _ _ _
      · rw [purged]
        exact .purge _ _ forward
    · rintro ⟨claims, online, other, verified, configured, kick, bounded, _, room⟩
      obtain ⟨refusal, error⟩ := refused claims verified
      obtain ⟨_, accepted⟩ := admitOnline_accepts configured kick (verify_identity verified)
        bounded room
      rw [accepted] at error
      cases error
  · have removal (now : Nat) : SameOthers gateway.session.id now admitted
        (context.authenticate call gateway).2.directory := by
      rcases left with kept | removed
      · rw [kept]
        exact .refl _ _ _
      · rw [removed, removeOnline]
        cases context.online with
        | none => exact .refl _ _ _
        | some online => exact .unregister admitted (online.lease _ _ _) now
    rw [← admitted_sameOthers_iff verified asked]
    exact ⟨fun same now forward => (same now forward).trans (removal now).symm,
      fun same now forward => (same now forward).trans (removal now)⟩

section Replay

def kickConfig : GatewayOnlineConfig where
  gatewayId := "gateway"
  leaseTtl := Duration.ofSecs 90
  duplicateLogin := .kickExisting
  realmCapacities := []
  fullRetryAfter := Duration.ofSecs 5

def kickContext : ConnectionContext where
  format := loginFormat
  tickets := loginService
  online := some kickConfig

def replayedLogin : AuthenticateCall where
  request := .ok "login.signature"
  validatedAt := Duration.ofSecs 101
  admission := .ok ()
  version := .ok ()
  leaseAt := Duration.ofSecs 101
  acquiredAt := Duration.ofSecs 101
  consumedAt := Duration.ofSecs 101
  removedAt := Duration.ofSecs 101
  reconnectId := "reconnect"
  reconnectAt := Duration.ofSecs 101

def replayGateway : Gateway where
  session := .new 2
  directory := MemoryOnlineDirectory.new.register
    (kickConfig.lease 1 loginIdentity (Duration.ofSecs 100)) .kickExisting
  store := (MemoryReplayProtectionStore.new.reserve loginClaims.ticketId loginClaims.expiresAt
    100).2

/-- The replayed ticket is refused, but the session that used it legitimately has
lost its place and its user's login. -/
theorem replay_displaces :
    (kickContext.authenticate replayedLogin replayGateway).1 = .error .ticketReplayed ∧
      replayGateway.directory.single loginIdentity.playerKey = some 1 ∧
      1 ∈ replayGateway.directory.capacity loginIdentity.realmKey ∧
      (kickContext.authenticate replayedLogin replayGateway).2.directory.single
        loginIdentity.playerKey = none ∧
      1 ∉ (kickContext.authenticate replayedLogin replayGateway).2.directory.capacity
        loginIdentity.realmKey := by
  let lease := kickConfig.lease 2 loginIdentity (Duration.ofSecs 101)
  let purged := replayGateway.directory.purge (Duration.ofSecs 101)
  have bound : replayGateway.directory.single loginIdentity.playerKey = some 1 :=
    single_register_kick _ (kickConfig.lease 1 loginIdentity _)
  have placed : 1 ∈ replayGateway.directory.capacity loginIdentity.realmKey := by decide
  have live : 1 ∈ purged.sessions := by
    rw [← Std.ExtTreeMap.isSome_getElem?_iff_mem, sessions_purge]
    decide
  have met : purged.previous lease = some 1 := by
    have kept : purged.single loginIdentity.playerKey = some 1 :=
      (single_purge _ _ _ _).mpr ⟨bound, live⟩
    exact filter_eq_some_iff.mpr ⟨kept, by decide⟩
  have displaced : 1 ∉ (purged.register lease .kickExisting).capacity lease.identity.realmKey := by
    have transfers : purged.transfersSlot lease .kickExisting = true := by
      simp only [transfersSlot, met]
      exact decide_eq_true ((mem_capacity_purge _ _ _ _).mpr ⟨placed, live⟩)
    have different := of_decide_eq_true (filter_eq_some_iff.mp met).2
    simp [register, transfers, met, different]
  have verified : kickContext.verify replayedLogin replayGateway.session = .ok loginClaims := by
    decide
  obtain ⟨previous, admitted⟩ := @admitOnline_accepts kickContext replayedLogin.acquiredAt
    replayGateway.session.id loginClaims.identity replayedLogin.leaseAt replayGateway.directory
    kickConfig rfl rfl
    (by decide) (by decide) (by simp [full, GatewayOnlineConfig.policy,
      GatewayOnlineConfig.maxSessions, kickConfig])
  have used : (MemoryReplayProtectionStore.new.reserve loginClaims.ticketId
      loginClaims.expiresAt 100).1 = true :=
    MemoryReplayProtectionStore.reserve_new _ (by decide)
  obtain ⟨store, refused⟩ := @TicketClaims.consume_refused loginClaims replayGateway.store
    (Duration.asSecs replayedLogin.consumedAt)
    ((MemoryReplayProtectionStore.reserve_remembers used).later (by decide))
  have outcome : kickContext.authenticate replayedLogin replayGateway =
      (.error .ticketReplayed, { replayGateway with
        store
        directory := (purged.register lease .kickExisting).unregister lease }) := by
    simp only [authenticate, verified, enter, admitted, refused]
    rfl
  rw [outcome]
  refine ⟨rfl, bound, placed, ?_, ?_⟩
  · refine single_unregister_self _ ?_
      (single_register_kick _ lease)
    rw [sessions_register]
    decide
  · exact mt (mem_capacity_unregister_of_ne _ (by decide : 1 ≠ 2) _).mp
      displaced

end Replay

end Isolation

end ConnectionContext

end Elura
