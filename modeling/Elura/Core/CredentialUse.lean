import Elura.Basis.BinarySearch
import Elura.Core.Credentials

/-!
What issued credentials are good for: a credential is accepted for the whole seconds of its
lifetime, and a refresh token is exchanged for tokens with the same rights.
-/

namespace Elura

open List HttpTokenService

variable {format : TokenFormat} {key : List UInt8} {id accessId refreshId : String}
  {now later validatedAt reservedAt accessNow refreshNow : Nat}
variable {issuer audience claimedIssuer claimedAudience : String} {issuedAt maximumLifetime : Nat}
  {ttl : Duration}

theorem splitOnce_append {text rest : String} {separator : Char} (free : separator ∉ text.toList) :
    splitOnce (text ++ String.singleton separator ++ rest) separator = some (text, rest) := by
  have before : ∀ letter ∈ text.toList, decide (letter ≠ separator) = true :=
    fun letter member => decide_eq_true (fun same => free (same ▸ member))
  simp only [splitOnce, String.toList_append, append_assoc, span_eq_takeWhile_dropWhile,
    takeWhile_append_of_pos before, dropWhile_append_of_pos before]
  simp

theorem checkTerms_eq_ok {expiresAt : Nat} :
    checkTerms issuer audience claimedIssuer claimedAudience issuedAt expiresAt maximumLifetime
        now = .ok () ↔
      claimedIssuer = issuer ∧ claimedAudience = audience ∧ issuedAt ≤ now + 30 ∧
        issuedAt < expiresAt ∧ expiresAt - issuedAt ≤ maximumLifetime ∧ now < expiresAt := by
  unfold checkTerms
  split
  · rename_i refused
    refine iff_of_false nofun (fun terms => ?_)
    obtain ⟨sameIssuer, sameAudience, past, positive, short, unexpired⟩ := terms
    rcases refused with bad | bad | bad | bad | bad | bad
    · exact bad sameIssuer
    · exact bad sameAudience
    all_goals omega
  · rename_i accepted
    push Not at accepted
    exact iff_of_true rfl accepted

namespace TokenFormat

variable {credential : Credential}

/-- What is to be known of the libraries about one credential: base64 has no dot, and the
signature can be read back and is not long. -/
structure Readable (format : TokenFormat) (key : List UInt8) (credential : Credential) : Prop where
  dotless : '.' ∉ (format.encode credential).toList
  short : (format.encodeSignature (format.sign key (format.encode credential))).utf8ByteSize ≤ 128
  signature : format.decodeSignature (format.encodeSignature
    (format.sign key (format.encode credential))) = some (format.sign key (format.encode credential))

theorem openPayload_token (readable : format.Readable key credential) {keys : List (List UInt8)}
    (member : key ∈ keys) {limit : Nat} (fits : (format.encode credential).utf8ByteSize ≤ limit) :
    format.openPayload keys limit (format.token key credential) =
      .ok (format.encode credential) := by
  have signed : keys.any (fun other => decide (format.sign key (format.encode credential) =
      format.sign other (format.encode credential))) = true :=
    any_eq_true.mpr ⟨key, member, decide_eq_true rfl⟩
  have shape : format.token key credential = format.encode credential ++ String.singleton '.' ++
      format.encodeSignature (format.sign key (format.encode credential)) := rfl
  have room := readable.short
  rw [openPayload, shape, splitOnce_append readable.dotless]
  simp only [readable.signature]
  rw [if_neg (by omega), if_pos signed]

theorem openPayload_eq (dotless : '.' ∉ (format.encode credential).toList)
    {keys : List (List UInt8)} {limit : Nat} {payload : String}
    (opened : format.openPayload keys limit (format.token key credential) = .ok payload) :
    payload = format.encode credential := by
  have shape : format.token key credential = format.encode credential ++ String.singleton '.' ++
      format.encodeSignature (format.sign key (format.encode credential)) := rfl
  rw [openPayload, shape, splitOnce_append dotless] at opened
  simp only at opened
  split_ifs at opened
  split at opened
  · cases opened
  · split_ifs at opened
    cases opened
    rfl

end TokenFormat

/-- The claims name the service and were issued for a whole number of seconds. -/
theorem checkTerms_issued (issuer audience : String) (whole : Duration.ofSecs ttl.asSecs = ttl)
    (started : issuedAt ≤ later)
    (unexpired : Duration.ofSecs later < Duration.ofSecs issuedAt + ttl) :
    checkTerms issuer audience issuer audience issuedAt (issuedAt + ttl.asSecs) ttl.asSecs later =
      .ok () := by
  have exactly : ttl.asSecs * 1000000000 = ttl := whole
  have soon : later * 1000000000 < issuedAt * 1000000000 + ttl := unexpired
  refine checkTerms_eq_ok.mpr ⟨rfl, rfl, ?_⟩
  omega

theorem not_checkTerms_expired (expired : Duration.ofSecs issuedAt + ttl ≤ Duration.ofSecs later) :
    checkTerms issuer audience claimedIssuer claimedAudience issuedAt (issuedAt + ttl.asSecs)
      maximumLifetime later ≠ .ok () := by
  intro accepted
  obtain ⟨_, _, _, _, _, unexpired⟩ := checkTerms_eq_ok.mp accepted
  have late : issuedAt * 1000000000 + ttl ≤ later * 1000000000 := expired
  unfold Duration.asSecs at unexpired
  omega

namespace TicketService

variable {other service : TicketService} {claims read : TicketClaims} {identity : Identity}
  {purpose : TicketPurpose}

def Trusts (other service : TicketService) : Prop :=
  service.primaryKey ∈ other.keys ∧ other.issuer = service.issuer ∧
    other.audience = service.audience ∧ ∀ purpose, other.ttl purpose = service.ttl purpose

theorem validate_token_ok (dotless : '.' ∉ (format.encode (.ticket claims)).toList)
    (valid : service.validate format (format.token key (.ticket claims)) now = .ok read) :
    read = claims := by
  obtain ⟨payload, opened, decoded, _⟩ := validate_ok valid
  cases TokenFormat.openPayload_eq dotless opened
  cases format.decodeTicket_encode _ _ decoded
  rfl

theorem validate_token (trusts : other.Trusts service)
    (issued : service.issueFor identity purpose id now = .ok claims)
    (readable : format.Readable service.primaryKey (.ticket claims))
    (read : format.decodeTicket (format.encode (.ticket claims)) = some claims)
    (fits : (format.encode (.ticket claims)).utf8ByteSize ≤ 4096)
    (whole : Duration.ofSecs (service.ttl purpose).asSecs = service.ttl purpose) (started : claims.issuedAt ≤ later)
    (unexpired : Duration.ofSecs later < Duration.ofSecs claims.issuedAt + service.ttl purpose) :
    other.validate format (format.token service.primaryKey (.ticket claims)) later = .ok claims := by
  obtain ⟨known, issuer, audience, ttl⟩ := trusts
  obtain ⟨_, valid, made⟩ := bind_ok issued
  have opened := TokenFormat.openPayload_token readable known fits
  cases made
  have terms := checkTerms_issued service.issuer service.audience whole started unexpired
  simp only [validate, opened, read, issuer, audience, ttl, terms, valid, bind, Except.bind, pure,
    Except.pure]

theorem validate_token_expired (issued : service.issueFor identity purpose id now = .ok claims)
    (dotless : '.' ∉ (format.encode (.ticket claims)).toList)
    (expired : Duration.ofSecs claims.issuedAt + service.ttl purpose ≤ Duration.ofSecs later) :
    ∀ read, other.validate format (format.token service.primaryKey (.ticket claims)) later ≠
      .ok read := by
  intro read valid
  obtain ⟨_, _, made⟩ := bind_ok issued
  cases validate_token_ok dotless valid
  obtain ⟨_, _, _, terms, _⟩ := validate_ok valid
  cases made
  exact not_checkTerms_expired expired terms

end TicketService

variable {other service : HttpTokenService} {claims read : HttpTokenClaims}
  {pair : HttpTokenClaims × HttpTokenClaims} {principal : Principal}
  {scopes normalized : List String} {purpose : HttpTokenPurpose}

namespace HttpTokenService

def Trusts (other service : HttpTokenService) : Prop :=
  service.primaryKey ∈ other.keys ∧ other.issuer = service.issuer ∧
    other.audience = service.audience ∧ ∀ purpose, other.ttl purpose = service.ttl purpose

theorem validate_token_ok (dotless : '.' ∉ (format.encode (.http claims)).toList)
    (valid : service.validate format (format.token key (.http claims)) now = .ok read) :
    read = claims := by
  obtain ⟨payload, opened, decoded, _⟩ := validate_ok valid
  cases TokenFormat.openPayload_eq dotless opened
  cases format.decodeHttp_encode _ _ decoded
  rfl

/-- Both tokens of a pair are made in the same way. -/
theorem issue_made
    (issued : service.issue principal scopes accessId refreshId accessNow refreshNow = .ok pair) :
    ∃ normalized, principal.validate = .ok () ∧ normalizeScopes scopes = .ok normalized ∧
      pair.1 = service.issueFor principal normalized .access accessId accessNow ∧
      pair.2 = service.issueFor principal normalized .refresh refreshId refreshNow := by
  obtain ⟨_, valid, rest⟩ := bind_ok issued
  obtain ⟨normalized, sorted, made⟩ := bind_ok rest
  cases made
  exact ⟨normalized, valid, sorted, rfl, rfl⟩

theorem validate_token (trusts : other.Trusts service) (valid : principal.validate = .ok ())
    (sorted : normalizeScopes scopes = .ok normalized)
    (made : claims = service.issueFor principal normalized purpose id now)
    (readable : format.Readable service.primaryKey (.http claims))
    (read : format.decodeHttp (format.encode (.http claims)) = some claims)
    (fits : (format.encode (.http claims)).utf8ByteSize ≤ 8192)
    (whole : Duration.ofSecs (service.ttl purpose).asSecs = service.ttl purpose) (started : claims.issuedAt ≤ later)
    (unexpired : Duration.ofSecs later < Duration.ofSecs claims.issuedAt + service.ttl purpose) :
    other.validate format (format.token service.primaryKey (.http claims)) later = .ok claims := by
  obtain ⟨known, issuer, audience, ttl⟩ := trusts
  obtain ⟨_, checked, same⟩ := bind_ok sorted
  have opened := TokenFormat.openPayload_token readable known fits
  cases made
  cases same
  change now ≤ later at started
  have terms := checkTerms_issued service.issuer service.audience whole started unexpired
  simp only [validate, opened, read, bind, Except.bind, pure, Except.pure]
  simp only [issueFor, issuer, audience, ttl, terms, valid, checked]

theorem validate_token_expired
    (made : claims = service.issueFor principal normalized purpose id now)
    (dotless : '.' ∉ (format.encode (.http claims)).toList)
    (expired : Duration.ofSecs claims.issuedAt + service.ttl purpose ≤ Duration.ofSecs later) :
    ∀ read, other.validate format (format.token service.primaryKey (.http claims)) later ≠
      .ok read := by
  intro read valid
  cases validate_token_ok dotless valid
  obtain ⟨_, _, _, terms⟩ := validate_ok valid
  cases made
  exact not_checkTerms_expired expired terms

end HttpTokenService

/-- A service that trusts the issuer accepts the token, whose lifetime is a whole number of
seconds, in every second of it, and reads the claims that were issued. -/
def Usable (payloadLimit : Nat) (format : TokenFormat) (key : List UInt8) (credential : Credential)
    (ttl : Duration) (issuedAt : Nat) {Claims : Type} (claims : Claims)
    (validate : String → Nat → Except Error Claims) : Prop :=
  ∀ later,
    (Duration.ofSecs ttl.asSecs = ttl →
        (format.encode credential).utf8ByteSize ≤ payloadLimit → issuedAt ≤ later →
        Duration.ofSecs later < Duration.ofSecs issuedAt + ttl →
        validate (format.token key credential) later = .ok claims) ∧
      (Duration.ofSecs issuedAt + ttl ≤ Duration.ofSecs later →
        ∀ read, validate (format.token key credential) later ≠ .ok read)

theorem loginFormat_readable :
    loginFormat.Readable loginService.primaryKey (.ticket loginClaims) where
  dotless := by decide
  short := by decide
  signature := rfl

section Rotation

theorem mem_destutter_ne {α : Type} [DecidableEq α] {items : List α} {item : α} :
    item ∈ items.destutter (· ≠ ·) ↔ item ∈ items := by
  have after (first : α) (rest : List α) :
      item ∈ rest.destutter' (· ≠ ·) first ↔ item ∈ first :: rest := by
    induction rest generalizing first with
    | nil => rfl
    | cons next rest ih =>
      by_cases different : first ≠ next
      · rw [destutter'_cons_pos rest different, mem_cons, ih]
        exact mem_cons.symm
      · rw [destutter'_cons_neg rest different, ih, not_not.mp different]
        simp
  cases items with
  | nil => rfl
  | cons first rest => exact after first rest

/-- Sorted, without repetitions, and the same scopes; so normalizing them again changes nothing. -/
theorem normalizeScopes_ok (normalizes : normalizeScopes scopes = .ok normalized) :
    normalized.Pairwise (· < ·) ∧ (∀ scope, scope ∈ normalized ↔ scope ∈ scopes) ∧
      normalizeScopes normalized = .ok normalized := by
  obtain ⟨_, checked, same⟩ := bind_ok normalizes
  cases same
  generalize sorted : (scopes.mergeSort (fun left right => left ≤ right)).destutter (· ≠ ·) =
    normalized at checked ⊢
  have rising : normalized.Pairwise (· < ·) := by
    unfold validateNormalizedScopes at checked
    split_ifs at checked with accepted
    push Not at accepted
    exact isChain_iff_pairwise.mp accepted.2.1
  refine ⟨rising, fun scope => ?_, ?_⟩
  · rw [← sorted, mem_destutter_ne, mem_mergeSort]
  · have kept : normalized.mergeSort (fun left right => left ≤ right) = normalized :=
      mergeSort_of_pairwise (rising.imp (fun below => decide_eq_true (le_of_lt below)))
    have distinct : normalized.destutter (· ≠ ·) = normalized :=
      destutter_of_isChain _ _ (rising.imp (fun below => ne_of_lt below)).isChain
    simp only [normalizeScopes, kept, distinct, checked, bind, Except.bind, pure, Except.pure]

def HttpTokenClaims.hasScope (claims : HttpTokenClaims) (scope : String) : Bool :=
  BinarySearch.found claims.scopes scope

def HttpTokenService.rotateRefresh (format : TokenFormat) (service : HttpTokenService)
    (token : String) (store : MemoryReplayProtectionStore) (accessId refreshId : String)
    (validatedAt reservedAt accessNow refreshNow : Nat) :
    Except Error (HttpTokenClaims × HttpTokenClaims) × MemoryReplayProtectionStore :=
  match service.verifyRefresh format token validatedAt with
  | .error error => (.error error, store)
  | .ok claims =>
    match store.reserve claims.tokenId claims.expiresAt reservedAt with
    | (true, after) => (service.issue claims.principal claims.scopes accessId refreshId
        accessNow refreshNow, after)
    | (false, after) => (.error .ticketReplayed, after)

/-- The pairs of tokens that come of one login: the first one, and what its refresh tokens are
exchanged for, at any service. -/
inductive RotationChain (format : TokenFormat) (principal : Principal) (scopes : List String) :
    HttpTokenService → HttpTokenClaims × HttpTokenClaims → Prop
  | issue (service : HttpTokenService) (accessId refreshId : String) (accessNow refreshNow : Nat)
      (pair : HttpTokenClaims × HttpTokenClaims)
      (issued : service.issue principal scopes accessId refreshId accessNow refreshNow = .ok pair) :
      RotationChain format principal scopes service pair
  | rotate (service other : HttpTokenService) (store : MemoryReplayProtectionStore)
      (accessId refreshId : String) (validatedAt reservedAt accessNow refreshNow : Nat)
      (pair next : HttpTokenClaims × HttpTokenClaims)
      (chain : RotationChain format principal scopes service pair)
      (rotated : (other.rotateRefresh format (format.token service.primaryKey (.http pair.2)) store
        accessId refreshId validatedAt reservedAt accessNow refreshNow).1 = .ok next) :
      RotationChain format principal scopes other next

structure Grants (principal : Principal) (scopes : List String) (claims : HttpTokenClaims) :
    Prop where
  owner : claims.principal = principal
  normalized : normalizeScopes scopes = .ok claims.scopes

theorem HttpTokenService.issue_grants
    (issued : service.issue principal scopes accessId refreshId accessNow refreshNow = .ok pair) :
    (Grants principal scopes pair.1 ∧ pair.1.purpose = .access) ∧
      Grants principal scopes pair.2 ∧ pair.2.purpose = .refresh := by
  obtain ⟨normalized, _, sorted, isAccess, isRefresh⟩ := issue_made issued
  rw [isAccess, isRefresh]
  exact ⟨⟨⟨rfl, sorted⟩, rfl⟩, ⟨rfl, sorted⟩, rfl⟩

theorem HttpTokenService.rotateRefresh_ok {store : MemoryReplayProtectionStore}
    (dotless : '.' ∉ (format.encode (.http claims)).toList)
    (rotated : (service.rotateRefresh format (format.token key (.http claims)) store accessId
      refreshId validatedAt reservedAt accessNow refreshNow).1 = .ok pair) :
    claims.purpose = .refresh ∧ service.issue claims.principal claims.scopes accessId refreshId
      accessNow refreshNow = .ok pair := by
  unfold rotateRefresh at rotated
  split at rotated
  · cases rotated
  · rename_i read verified
    obtain ⟨checked, valid, rest⟩ := bind_ok verified
    cases validate_token_ok dotless valid
    split_ifs at rest with refreshing
    cases rest
    split at rotated
    · exact ⟨refreshing, rotated⟩
    · cases rotated

theorem RotationChain.grants
    (dotless : ∀ credential, '.' ∉ (format.encode credential).toList)
    (chain : RotationChain format principal scopes service pair) :
    (Grants principal scopes pair.1 ∧ pair.1.purpose = .access) ∧
      Grants principal scopes pair.2 ∧ pair.2.purpose = .refresh := by
  induction chain with
  | issue _ _ _ _ _ _ issued => exact issue_grants issued
  | rotate _ _ _ _ _ _ _ _ _ _ _ _ rotated ih =>
    obtain ⟨_, ⟨owner, normalized⟩, _⟩ := ih
    obtain ⟨_, issued⟩ := rotateRefresh_ok (dotless _) rotated
    -- the scopes of the refresh token are normalized already
    obtain ⟨⟨⟨sameOwner, same⟩, access⟩, ⟨otherOwner, others⟩, refresh⟩ :=
      issue_grants issued
    rw [(normalizeScopes_ok normalized).2.2] at same others
    exact ⟨⟨⟨sameOwner.trans owner, normalized.trans same⟩, access⟩,
      ⟨otherOwner.trans owner, normalized.trans others⟩, refresh⟩

def apiService : HttpTokenService where
  primaryKey := List.replicate 32 7
  previousKeys := []
  issuer := "auth"
  audience := "api"
  accessTtl := Duration.ofSecs 600
  refreshTtl := Duration.ofSecs 3600

end Rotation

end Elura
