import Elura.Basis.BigEndian
import Elura.Basis.Net
import Elura.Basis.Rust
import Mathlib.Data.List.TakeWhile

/-!
The address of a client behind trusted proxies, from the addresses the proxies have appended to
the forwarding header of its request.
-/

namespace Elura

open List hiding Vector

def trim (text : List Char) : List Char :=
  ((text.dropWhile isWhitespace).reverse.dropWhile isWhitespace).reverse

inductive IpNet
  | v4 (address : Vector UInt8 4) (bits : Fin 33)
  | v6 (address : Vector UInt8 16) (bits : Fin 129)
  deriving DecidableEq, Repr

def IpNet.contains : IpNet → IpAddr → Bool
  | .v4 address bits, .v4 octets =>
    uintOfBytes octets.toList / 2 ^ (32 - bits.val) ==
      uintOfBytes address.toList / 2 ^ (32 - bits.val)
  | .v6 address bits, .v6 octets =>
    uintOfBytes octets.toList / 2 ^ (128 - bits.val) ==
      uintOfBytes address.toList / 2 ^ (128 - bits.val)
  | _, _ => false

/-- The IPv4 address that an IPv6 address of the form `::ffff:a.b.c.d` stands for. -/
def toIpv4Mapped (octets : Vector UInt8 16) : Option (Vector UInt8 4) :=
  if octets.toList.take 12 = [0, 0, 0, 0, 0, 0, 0, 0, 0, 0, 0xff, 0xff] then
    some #v[octets[12], octets[13], octets[14], octets[15]]
  else none

def canonicalIp : IpAddr → IpAddr
  | .v6 octets =>
    match toIpv4Mapped octets with
    | some mapped => .v4 mapped
    | none => .v6 octets
  | address => address

theorem canonicalIp_canonicalIp (address : IpAddr) :
    canonicalIp (canonicalIp address) = canonicalIp address := by
  cases address with
  | v4 => rfl
  | v6 octets =>
    simp only [canonicalIp]
    cases mapped : toIpv4Mapped octets with
    | some => rfl
    | none => simp only [mapped]

/-- How the standard library reads an address; an empty text is none. -/
structure IpParser where
  parse : List Char → Option IpAddr
  empty : parse [] = none

structure TrustedProxies where
  networks : List IpNet
  deriving DecidableEq, Repr

namespace TrustedProxies

def contains (trusted : TrustedProxies) (address : IpAddr) : Bool :=
  trusted.networks.any (fun network => network.contains (canonicalIp address))

def selectAddress (trusted : TrustedProxies) : IpAddr → List IpAddr → IpAddr
  | selected, [] => selected
  | _, address :: rest =>
    if trusted.contains address then trusted.selectAddress address rest else address

def forwardedAddress (parser : IpParser) (trusted : TrustedProxies) (peer : SocketAddr)
    (forwardedFor : List Char) : SocketAddr :=
  if !trusted.contains peer.ip || trim forwardedFor = [] then peer
  else
    match (forwardedFor.splitOn ',').mapM
        (fun value => (parser.parse (trim value)).map canonicalIp) with
    | none => peer
    | some addresses =>
      { ip := trusted.selectAddress (canonicalIp peer.ip) addresses.reverse, port := peer.port }

variable {parser : IpParser} {trusted : TrustedProxies}

theorem contains_canonicalIp (address : IpAddr) :
    trusted.contains (canonicalIp address) = trusted.contains address := by
  simp only [contains, canonicalIp_canonicalIp]

/-- Proxies are passed over, and nothing before the first other address is looked at. -/
theorem selectAddress_append {selected client : IpAddr} {proxies earlier : List IpAddr}
    (passed : ∀ proxy ∈ proxies, trusted.contains proxy = true)
    (untrusted : trusted.contains client = false) :
    trusted.selectAddress selected (proxies ++ client :: earlier) = client := by
  induction proxies generalizing selected with
  | nil => simp only [nil_append, selectAddress, untrusted, Bool.false_eq_true, if_false]
  | cons proxy _ ih =>
    simp only [cons_append, selectAddress, passed proxy mem_cons_self]
    exact ih (fun other listed => passed other (mem_cons_of_mem _ listed))

theorem mapM_parse {texts : List (List Char)} {known : IpAddr → Prop}
    (valid : ∀ text ∈ texts, ∃ address, parser.parse (trim text) = some address ∧ known address) :
    ∃ addresses : List IpAddr, texts.mapM (fun value => (parser.parse (trim value)).map canonicalIp) =
        some (addresses.map canonicalIp) ∧ ∀ address ∈ addresses, known address := by
  induction texts with
  | nil => exact ⟨[], rfl, fun _ listed => (nomatch listed)⟩
  | cons text _ ih =>
    obtain ⟨address, parsed, isKnown⟩ := valid text mem_cons_self
    obtain ⟨addresses, mapped, areKnown⟩ :=
      ih (fun other listed => valid other (mem_cons_of_mem _ listed))
    refine ⟨address :: addresses, ?_, ?_⟩
    · rw [mapM_cons, parsed, mapped]
      rfl
    · intro other listed
      rcases mem_cons.mp listed with rfl | listed
      · exact isKnown
      · exact areKnown other listed

theorem blank_of_trim {text : List Char} (blank : trim text = []) :
    ∀ letter ∈ text, isWhitespace letter = true := by
  have inner : ∀ letter ∈ text.dropWhile isWhitespace, isWhitespace letter = true := by
    intro letter listed
    exact dropWhile_eq_nil_iff.mp (reverse_eq_nil_iff.mp blank) letter
      (mem_reverse.mpr listed)
  apply dropWhile_eq_nil_iff.mp
  -- what is left starts with a letter that is not blank
  cases remaining : text.dropWhile isWhitespace with
  | nil => rfl
  | cons =>
    have filled : text.dropWhile isWhitespace ≠ [] := by
      rw [remaining]
      exact cons_ne_nil _ _
    have visible := head_dropWhile_not isWhitespace filled
    have hidden := inner _ (head_mem filled)
    rw [hidden] at visible
    cases visible

theorem trim_ne_nil {forwardedFor entry : List Char} {address : IpAddr}
    (listed : entry ∈ forwardedFor.splitOn ',')
    (parsed : parser.parse (trim entry) = some address) : trim forwardedFor ≠ [] := by
  intro blank
  have comma : ',' ∉ forwardedFor := fun inside =>
    absurd (blank_of_trim blank ',' inside) (by decide)
  rw [splitOn_eq_singleton comma, mem_singleton] at listed
  rw [listed, blank, parser.empty] at parsed
  cases parsed

structure EndsWith (parser : IpParser) (trusted : TrustedProxies) (entry : List Char)
    (proxies : List (List Char)) (client : IpAddr) : Prop where
  isClient : parser.parse (trim entry) = some client
  untrusted : trusted.contains client = false
  passed : ∀ proxy ∈ proxies, ∃ address, parser.parse (trim proxy) = some address ∧
    trusted.contains address = true

theorem forwardedAddress_client {peer : SocketAddr} {forwardedFor entry : List Char}
    {before proxies : List (List Char)} {client : IpAddr}
    (peerTrusted : trusted.contains peer.ip = true)
    (ends : EndsWith parser trusted entry proxies client)
    (entries : forwardedFor.splitOn ',' = before ++ entry :: proxies)
    (valid : ∀ text ∈ before, ∃ address, parser.parse (trim text) = some address) :
    forwardedAddress parser trusted peer forwardedFor =
      { ip := canonicalIp client, port := peer.port } := by
  have listed : entry ∈ forwardedFor.splitOn ',' := by
    rw [entries]
    exact mem_append_right _ mem_cons_self
  obtain ⟨earlier, readEarlier, _⟩ := @mapM_parse parser before (fun _ => True)
    (fun text inside => (valid text inside).imp (fun _ parsed => ⟨parsed, trivial⟩))
  obtain ⟨later, readLater, trustedLater⟩ :=
    @mapM_parse parser proxies (fun address => trusted.contains address = true) ends.passed
  have read : (forwardedFor.splitOn ',').mapM
      (fun value => (parser.parse (trim value)).map canonicalIp) =
        some (earlier.map canonicalIp ++ canonicalIp client :: later.map canonicalIp) := by
    rw [entries, mapM_append, mapM_cons, readEarlier, readLater, ends.isClient]
    rfl
  have guard : ¬(!trusted.contains peer.ip || decide (trim forwardedFor = [])) = true := by
    simp [peerTrusted, trim_ne_nil listed ends.isClient]
  rw [forwardedAddress, if_neg guard, read]
  simp only [reverse_append, reverse_cons, append_assoc, singleton_append]
  rw [selectAddress_append]
  · intro proxy inside
    obtain ⟨address, isLater, rfl⟩ := mem_map.mp (mem_reverse.mp inside)
    rw [contains_canonicalIp]
    exact trustedLater address isLater
  · rw [contains_canonicalIp]
    exact ends.untrusted

end TrustedProxies

section SampleAddresses

def sampleParser : IpParser where
  parse text :=
    if text = "192.0.2.9".toList then some (.v4 #v[192, 0, 2, 9])
    else if text = "10.0.0.1".toList then some (.v4 #v[10, 0, 0, 1])
    else none
  empty := by decide

def sampleProxies : TrustedProxies := { networks := [.v4 #v[10, 0, 0, 0] 8] }

def samplePeer : SocketAddr := { ip := .v4 #v[10, 0, 0, 2], port := 443 }

end SampleAddresses

end Elura
