import Elura.Core.ReplayProtection

/-!
Signed credentials of `elura_core`: the single-use tickets of `ticket` and the access and refresh
tokens of `http_auth`. JSON, base64 and HMAC are parameters; of them only what was encoded may be
read back.
-/

namespace Elura

structure Identity where
  accountId : Int
  userId : Int
  regionId : UInt32
  realmId : UInt32
  generation : UInt64
  deriving DecidableEq, Repr

def Identity.validate (identity : Identity) : Except Error Unit :=
  if identity.accountId ≤ 0 ∨ identity.userId ≤ 0 ∨ identity.regionId = 0 ∨
      identity.realmId = 0 ∨ identity.generation = 0 then .error .authentication
  else .ok ()

def Identity.playerKey (identity : Identity) : PlayerKey where
  regionId := identity.regionId
  realmId := identity.realmId
  userId := identity.userId

structure Principal where
  accountId : Int
  generation : UInt64
  deriving DecidableEq, Repr

/-- Every caller replaces the error of this check by an authentication error. -/
def Principal.validate (principal : Principal) : Except Error Unit :=
  if principal.accountId ≤ 0 ∨ principal.generation = 0 then .error .authentication
  else .ok ()

inductive TicketPurpose
  | login
  | reconnect
  deriving DecidableEq, Repr

structure TicketClaims where
  issuer : String
  audience : String
  ticketId : String
  issuedAt : Nat
  expiresAt : Nat
  purpose : TicketPurpose
  identity : Identity
  deriving DecidableEq, Repr

inductive HttpTokenPurpose
  | access
  | refresh
  deriving DecidableEq, Repr

structure HttpTokenClaims where
  issuer : String
  audience : String
  tokenId : String
  issuedAt : Nat
  expiresAt : Nat
  purpose : HttpTokenPurpose
  principal : Principal
  scopes : List String
  deriving DecidableEq, Repr

inductive Credential
  | ticket (claims : TicketClaims)
  | http (claims : HttpTokenClaims)
  deriving DecidableEq, Repr

namespace Credential

def id : Credential → String
  | ticket claims => claims.ticketId
  | http claims => claims.tokenId

def expiresAt : Credential → Nat
  | ticket claims => claims.expiresAt
  | http claims => claims.expiresAt

end Credential

/-- The libraries credentials are written with. A written payload is never read
as other claims, and the claims of one kind are never read as the other kind,
since each kind requires fields the other lacks. -/
structure TokenFormat where
  encode : Credential → String
  decodeTicket : String → Option TicketClaims
  decodeHttp : String → Option HttpTokenClaims
  sign : List UInt8 → String → List UInt8
  encodeSignature : List UInt8 → String
  decodeSignature : String → Option (List UInt8)
  decodeTicket_encode : ∀ credential claims,
    decodeTicket (encode credential) = some claims → credential = .ticket claims
  decodeHttp_encode : ∀ credential claims,
    decodeHttp (encode credential) = some claims → credential = .http claims

namespace TokenFormat

def token (format : TokenFormat) (key : List UInt8) (credential : Credential) : String :=
  let payload := format.encode credential
  payload ++ "." ++ format.encodeSignature (format.sign key payload)

def openPayload (format : TokenFormat) (keys : List (List UInt8)) (payloadLimit : Nat)
    (token : String) : Except Error String :=
  match splitOnce token '.' with
  | none => .error .authentication
  | some (payload, signature) =>
    if payloadLimit < payload.utf8ByteSize ∨ 128 < signature.utf8ByteSize then
      .error .authentication
    else match format.decodeSignature signature with
      | none => .error .authentication
      | some bytes =>
        if keys.any (fun key => bytes = format.sign key payload) then .ok payload
        else .error .authentication

/-- A key's signature under a presented payload is one the key's owner made. -/
def Unforged (format : TokenFormat) (keys : List (List UInt8))
    (issued : List (List UInt8 × Credential)) (token : String) : Prop :=
  ∀ payload signature, splitOnce token '.' = some (payload, signature) → ∀ key ∈ keys,
    format.decodeSignature signature = some (format.sign key payload) →
    ∃ credential, (key, credential) ∈ issued ∧ format.encode credential = payload

theorem openPayload_issued {format : TokenFormat} {keys : List (List UInt8)} {payloadLimit : Nat}
    {token payload : String} {issued : List (List UInt8 × Credential)}
    (unforged : format.Unforged keys issued token)
    (opened : format.openPayload keys payloadLimit token = .ok payload) {Claims : Type}
    {decode : String → Option Claims} {make : Claims → Credential}
    (exact_ : ∀ credential claims, decode (format.encode credential) = some claims →
      credential = make claims) {claims : Claims} (read : decode payload = some claims) :
    ∃ key, (key, make claims) ∈ issued := by
  unfold openPayload at opened
  split at opened
  · cases opened
  · rename_i text signature parted
    split_ifs at opened
    split at opened
    · cases opened
    · rename_i bytes decoded
      split_ifs at opened with signed
      cases opened
      obtain ⟨key, member, same⟩ := List.any_eq_true.mp signed
      rw [decide_eq_true_eq.mp same] at decoded
      obtain ⟨credential, made, rfl⟩ := unforged payload signature parted key member decoded
      exact ⟨key, exact_ credential claims read ▸ made⟩

end TokenFormat

def checkTerms (issuer audience claimedIssuer claimedAudience : String)
    (issuedAt expiresAt maximumLifetime now : Nat) : Except Error Unit :=
  if claimedIssuer ≠ issuer ∨ claimedAudience ≠ audience ∨ now + 30 < issuedAt ∨
      expiresAt ≤ issuedAt ∨ maximumLifetime < expiresAt - issuedAt ∨ expiresAt ≤ now then
    .error .ticketExpired
  else .ok ()

structure TicketService where
  primaryKey : List UInt8
  previousKeys : List (List UInt8)
  issuer : String
  audience : String
  loginTtl : Duration
  reconnectTtl : Duration
  deriving DecidableEq, Repr

namespace TicketService

def keys (service : TicketService) : List (List UInt8) :=
  service.primaryKey :: service.previousKeys

def newRotating (primaryKey : List UInt8) (previousKeys : List (List UInt8))
    (issuer audience : String) (loginTtl reconnectTtl : Duration) : Except Error TicketService :=
  let keys := primaryKey :: previousKeys
  if keys.any (fun key => key.length < 32) ∨ 16 < keys.length ∨ loginTtl = 0 ∨
      Duration.ofSecs 3600 < loginTtl ∨ reconnectTtl = 0 ∨
      Duration.ofSecs 3600 < reconnectTtl then
    .error (.invalidConfig ("ticket keys must be >=32 bytes, contain at most 16 keys " ++
      "and ticket ttls must be positive and <=1h"))
  else .ok { primaryKey, previousKeys, issuer, audience, loginTtl, reconnectTtl }

def ttl (service : TicketService) : TicketPurpose → Duration
  | .login => service.loginTtl
  | .reconnect => service.reconnectTtl

/-- The claims of a new ticket. `issue_login` and `issue_reconnect` differ in the
purpose; the id is drawn at random. -/
def issueFor (service : TicketService) (identity : Identity) (purpose : TicketPurpose)
    (id : String) (now : Nat) : Except Error TicketClaims := do
  identity.validate
  return {
    issuer := service.issuer
    audience := service.audience
    ticketId := id
    issuedAt := now
    expiresAt := now + (service.ttl purpose).asSecs
    purpose
    identity }

def validate (format : TokenFormat) (service : TicketService) (token : String) (now : Nat) :
    Except Error TicketClaims := do
  let payload ← format.openPayload service.keys 4096 token
  match format.decodeTicket payload with
  | none => .error .authentication
  | some claims =>
    checkTerms service.issuer service.audience claims.issuer claims.audience claims.issuedAt
      claims.expiresAt (service.ttl claims.purpose).asSecs now
    claims.identity.validate
    return claims

theorem validate_ok {format : TokenFormat} {service : TicketService} {token : String} {now : Nat}
    {claims : TicketClaims} (valid : service.validate format token now = .ok claims) :
    ∃ payload, format.openPayload service.keys 4096 token = .ok payload ∧
      format.decodeTicket payload = some claims ∧
      checkTerms service.issuer service.audience claims.issuer claims.audience claims.issuedAt
        claims.expiresAt (service.ttl claims.purpose).asSecs now = .ok () ∧
      claims.identity.validate = .ok () := by
  unfold validate at valid
  obtain ⟨payload, opened, rest⟩ := bind_ok valid
  split at rest
  · cases rest
  · rename_i read decoded
    obtain ⟨_, terms, rest⟩ := bind_ok rest
    obtain ⟨_, checked, rest⟩ := bind_ok rest
    cases rest
    exact ⟨payload, opened, decoded, terms, checked⟩

end TicketService

def TicketClaims.consume (claims : TicketClaims) (store : MemoryReplayProtectionStore)
    (now : Nat) : Except Error TicketClaims × MemoryReplayProtectionStore :=
  match store.reserve claims.ticketId claims.expiresAt now with
  | (true, after) => (.ok claims, after)
  | (false, after) => (.error .ticketReplayed, after)

theorem TicketClaims.consume_accepted {claims : TicketClaims}
    {store : MemoryReplayProtectionStore} {now : Nat}
    (accepted : (store.reserve claims.ticketId claims.expiresAt now).1 = true) :
    ∃ after, claims.consume store now = (.ok claims, after) := by
  unfold TicketClaims.consume
  rcases answer : store.reserve claims.ticketId claims.expiresAt now with ⟨_ | _, after⟩
  · rw [answer] at accepted
    cases accepted
  · exact ⟨after, rfl⟩

theorem TicketClaims.consume_refused {claims : TicketClaims} {store : MemoryReplayProtectionStore}
    {now : Nat} (remembers : store.Remembers claims.ticketId claims.expiresAt now) :
    ∃ after, claims.consume store now = (.error .ticketReplayed, after) := by
  unfold TicketClaims.consume
  rcases answer : store.reserve claims.ticketId claims.expiresAt now with ⟨_ | _, after⟩
  · exact ⟨after, rfl⟩
  · refine absurd remembers (MemoryReplayProtectionStore.reserve_fresh ?_).2
    rw [answer]

def maxScopes : Nat := 64

def maxScopeBytes : Nat := 64

def scopeCharacter (character : Char) : Bool :=
  character.isLower || character.isDigit || character ∈ [':', '_', '-', '.', '*']

def validateNormalizedScopes (scopes : List String) : Except Error Unit :=
  if maxScopes < scopes.length ∨ ¬scopes.IsChain (· < ·) ∨
      scopes.any (fun scope => scope.isEmpty || maxScopeBytes < scope.utf8ByteSize ||
        !scope.toList.all scopeCharacter) then
    .error .authentication
  else .ok ()

def normalizeScopes (scopes : List String) : Except Error (List String) := do
  let normalized := (scopes.mergeSort (fun left right => left ≤ right)).destutter (· ≠ ·)
  validateNormalizedScopes normalized
  return normalized

structure HttpTokenService where
  primaryKey : List UInt8
  previousKeys : List (List UInt8)
  issuer : String
  audience : String
  accessTtl : Duration
  refreshTtl : Duration
  deriving DecidableEq, Repr

namespace HttpTokenService

def keys (service : HttpTokenService) : List (List UInt8) :=
  service.primaryKey :: service.previousKeys

def maxAccessTtl : Duration := Duration.ofSecs (60 * 60)

def maxRefreshTtl : Duration := Duration.ofSecs (90 * 24 * 60 * 60)

def newRotating (primaryKey : List UInt8) (previousKeys : List (List UInt8))
    (issuer audience : String) (accessTtl refreshTtl : Duration) :
    Except Error HttpTokenService :=
  let keys := primaryKey :: previousKeys
  if keys.any (fun key => key.length < 32) ∨ 16 < keys.length ∨ isBlank issuer ∨
      isBlank audience ∨ accessTtl = 0 ∨ maxAccessTtl < accessTtl ∨ refreshTtl = 0 ∨
      maxRefreshTtl < refreshTtl ∨ refreshTtl ≤ accessTtl then
    .error (.invalidConfig ("HTTP token keys must be >=32 bytes, contain at most 16 keys, " ++
      "names must be non-empty, and 0 < access TTL < refresh TTL within supported limits"))
  else .ok { primaryKey, previousKeys, issuer, audience, accessTtl, refreshTtl }

def ttl (service : HttpTokenService) : HttpTokenPurpose → Duration
  | .access => service.accessTtl
  | .refresh => service.refreshTtl

def issueFor (service : HttpTokenService) (principal : Principal) (scopes : List String)
    (purpose : HttpTokenPurpose) (id : String) (now : Nat) : HttpTokenClaims where
  issuer := service.issuer
  audience := service.audience
  tokenId := id
  issuedAt := now
  expiresAt := now + (service.ttl purpose).asSecs
  purpose
  principal
  scopes

/-- The claims of the access and of the refresh token, each with its own id and
its own reading of the clock. -/
def issue (service : HttpTokenService) (principal : Principal) (scopes : List String)
    (accessId refreshId : String) (accessNow refreshNow : Nat) :
    Except Error (HttpTokenClaims × HttpTokenClaims) := do
  principal.validate
  let normalized ← normalizeScopes scopes
  return (service.issueFor principal normalized .access accessId accessNow,
    service.issueFor principal normalized .refresh refreshId refreshNow)

def validate (format : TokenFormat) (service : HttpTokenService) (token : String) (now : Nat) :
    Except Error HttpTokenClaims := do
  let payload ← format.openPayload service.keys 8192 token
  match format.decodeHttp payload with
  | none => .error .authentication
  | some claims =>
    checkTerms service.issuer service.audience claims.issuer claims.audience claims.issuedAt
      claims.expiresAt (service.ttl claims.purpose).asSecs now
    claims.principal.validate
    validateNormalizedScopes claims.scopes
    return claims

theorem validate_ok {format : TokenFormat} {service : HttpTokenService} {token : String} {now : Nat}
    {claims : HttpTokenClaims} (valid : service.validate format token now = .ok claims) :
    ∃ payload, format.openPayload service.keys 8192 token = .ok payload ∧
      format.decodeHttp payload = some claims ∧
      checkTerms service.issuer service.audience claims.issuer claims.audience claims.issuedAt
        claims.expiresAt (service.ttl claims.purpose).asSecs now = .ok () := by
  unfold validate at valid
  obtain ⟨payload, opened, rest⟩ := bind_ok valid
  split at rest
  · cases rest
  · rename_i read decoded
    obtain ⟨_, terms, rest⟩ := bind_ok rest
    obtain ⟨_, _, rest⟩ := bind_ok rest
    obtain ⟨_, _, rest⟩ := bind_ok rest
    cases rest
    exact ⟨payload, opened, decoded, terms⟩

def verifyAccess (format : TokenFormat) (service : HttpTokenService) (token : String)
    (now : Nat) : Except Error HttpTokenClaims := do
  let claims ← service.validate format token now
  if claims.purpose = .access then return claims else .error .authentication

def verifyRefresh (format : TokenFormat) (service : HttpTokenService) (token : String)
    (now : Nat) : Except Error HttpTokenClaims := do
  let claims ← service.validate format token now
  if claims.purpose = .refresh then return claims else .error .authentication

end HttpTokenService

section Login

def loginService : TicketService where
  primaryKey := List.replicate 32 7
  previousKeys := []
  issuer := "auth"
  audience := "gateway"
  loginTtl := Duration.ofSecs 60
  reconnectTtl := Duration.ofSecs 1800

def loginIdentity : Identity where
  accountId := 1
  userId := 2
  regionId := 1
  realmId := 1
  generation := 1

def loginClaims : TicketClaims where
  issuer := "auth"
  audience := "gateway"
  ticketId := ""
  issuedAt := 100
  expiresAt := 160
  purpose := .login
  identity := loginIdentity

theorem unread_http (credential : Credential) (claims : HttpTokenClaims)
    (read : none = some claims) : credential = .http claims := by
  cases read

def loginFormat : TokenFormat where
  encode := fun credential => if credential = .ticket loginClaims then "login" else "other"
  decodeTicket := fun payload => if payload = "login" then some loginClaims else none
  decodeHttp := fun _ => none
  sign := fun key _ => key
  encodeSignature := fun _ => "signature"
  decodeSignature := fun _ => some (List.replicate 32 7)
  decodeTicket_encode := by
    intro credential claims read
    split at read
    · rename_i same
      cases read
      exact same
    · cases read
  decodeHttp_encode := unread_http

end Login

end Elura
