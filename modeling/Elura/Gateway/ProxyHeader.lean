import Elura.Basis.ByteStream
import Elura.Basis.Text
import Elura.Core.Values
import Elura.Gateway.Proxy

/-!
The PROXY header that a load balancer sends in front of a connection, in its text version and
in its binary one. The reader takes the header off the stream and nothing else.
-/

namespace Elura

open List hiding Vector

open ByteStream

def v1Start : List UInt8 := asciiBytes "PROXY ".toList

def v2Signature : List UInt8 := [13, 10, 13, 10, 0, 13, 10, 81, 85, 73, 84, 10]

/-- The stream readers fail with an I/O error at the end of the stream. -/
def readBytes (count : Nat) : Fallible ByteStream Error (List UInt8) :=
  readExact (.io .unexpectedEof) count

def readU8 : Fallible ByteStream Error UInt8 := do
  let bytes ← readBytes 1
  return bytes.headD 0

def readU16 : Fallible ByteStream Error Nat := do
  let bytes ← readBytes 2
  return uintOfBytes bytes

def crlf : List UInt8 := [13, 10]

/-- The loop of `read_v1`; `room` is how much the header may still grow. -/
def readLine : Nat → List UInt8 → Fallible ByteStream Error (List UInt8)
  | 0, header =>
    if crlf.isSuffixOf header then pure header
    else throw (.invalidFrame "PROXY v1 header is too large")
  | room + 1, header =>
    if crlf.isSuffixOf header then pure header
    else do
      let byte ← readU8
      readLine room (header ++ [byte])

def isAsciiWhitespace (letter : Char) : Bool :=
  letter == ' ' || letter == '\t' || letter == '\n' || letter == '\x0c' || letter == '\r'

def splitAsciiWhitespace (text : List Char) : List (List Char) :=
  (text.splitOnP isAsciiWhitespace).filter (· ≠ [])

def dropLineEnds : List Char → List Char
  | '\n' :: '\r' :: rest => dropLineEnds rest
  | text => text

/-- `trim_end_matches("\r\n")`. -/
def trimLineEnds (text : List Char) : List Char := (dropLineEnds text.reverse).reverse

def parsePort (value : List Char) : Except Error UInt16 :=
  match (parseUnsigned 65535 value).filter (· ≠ 0) with
  | some port => .ok (.ofNat port)
  | none => .error (.invalidFrame "invalid PROXY source or destination port")

def familyMatches (protocol : List Char) : IpAddr → IpAddr → Bool
  | .v4 _, .v4 _ => protocol = "TCP4".toList
  | .v6 _, .v6 _ => protocol = "TCP6".toList
  | _, _ => false

def parseV1 (parser : IpParser) (header : List UInt8) : Except Error SocketAddr :=
  match String.fromUTF8? ⟨header.toArray⟩ with
  | none => .error (.invalidFrame "PROXY v1 header is not ASCII")
  | some value =>
    match splitAsciiWhitespace (trimLineEnds value.toList) with
    | [keyword, protocol, source, destination, sourcePort, destinationPort] => do
        if keyword ≠ "PROXY".toList then
          throw (.invalidFrame "invalid PROXY v1 fields")
        let some sourceIp := parser.parse source
          | throw (.invalidFrame "invalid PROXY v1 source address")
        let some destinationIp := parser.parse destination
          | throw (.invalidFrame "invalid PROXY v1 destination address")
        if !familyMatches protocol sourceIp destinationIp then
          throw (.invalidFrame "invalid PROXY v1 address family")
        let port ← parsePort sourcePort
        let _ ← parsePort destinationPort
        return { ip := canonicalIp sourceIp, port }
    | _ => .error (.invalidFrame "invalid PROXY v1 fields")

def readV1 (parser : IpParser) (header : List UInt8) (maximum : Nat) :
    Fallible ByteStream Error SocketAddr := do
  let line ← readLine (maximum - header.length) header
  liftM (parseV1 parser line)

def octets (count : Nat) (bytes : List UInt8) : Vector UInt8 count :=
  Vector.ofFn (fun index => bytes.getD index 0)

def parseV2 (familyProtocol : UInt8) (payload : List UInt8) : Except Error SocketAddr :=
  if familyProtocol = 0x11 ∧ 12 ≤ payload.length then
    let port := uintOfBytes ((payload.drop 8).take 2)
    if port = 0 then .error (.invalidFrame "invalid PROXY v2 source port")
    else .ok { ip := .v4 (octets 4 payload), port := .ofNat port }
  else if familyProtocol = 0x21 ∧ 36 ≤ payload.length then
    let port := uintOfBytes ((payload.drop 32).take 2)
    if port = 0 then .error (.invalidFrame "invalid PROXY v2 source port")
    else .ok { ip := canonicalIp (.v6 (octets 16 payload)), port := .ofNat port }
  else .error (.invalidFrame "PROXY v2 requires TCP over IPv4 or IPv6")

def readV2 (maximum : Nat) : Fallible ByteStream Error SocketAddr := do
  let versionCommand ← readU8
  let familyProtocol ← readU8
  let length ← readU16
  if versionCommand ≠ 0x21 ∨ maximum < length + 16 then
    throw (.invalidFrame "invalid PROXY v2 version, command, or length")
  else do
    let payload ← readBytes length
    liftM (parseV2 familyProtocol payload)

def readProxyHeader (parser : IpParser) (maximum : Nat) :
    Fallible ByteStream Error SocketAddr := do
  let start ← readBytes 12
  if start = v2Signature then readV2 maximum
  else if v1Start.isPrefixOf start then readV1 parser start maximum
  else throw (.invalidFrame "missing or invalid PROXY protocol header")

section Bounds

theorem takesAtMost_readU8 : TakesAtMost readU8 1 :=
  (TakesAtMost.readExact _ 1).bind (fun _ => TakesAtMost.pure _)

theorem takesAtMost_readLine (room : Nat) (header : List UInt8) :
    TakesAtMost (readLine room header) room := by
  induction room generalizing header with
  | zero =>
    rw [readLine]
    split
    · exact TakesAtMost.pure _
    · exact TakesAtMost.throw _
  | succ _ ih =>
    rw [readLine]
    split
    · exact (TakesAtMost.pure _).mono (Nat.zero_le _)
    · exact (takesAtMost_readU8.bind (fun byte => ih (header ++ [byte]))).mono (by omega)

theorem takesAtMost_readV2 {maximum : Nat} (least : 16 ≤ maximum) :
    TakesAtMost (readV2 maximum) (maximum - 12) := by
  have short : TakesAtMost readU16 2 :=
    (TakesAtMost.readExact _ 2).bind (fun _ => TakesAtMost.pure _)
  have body : ∀ versionCommand familyProtocol length, TakesAtMost
      (if versionCommand ≠ (0x21 : UInt8) ∨ maximum < length + 16 then
        throw (.invalidFrame "invalid PROXY v2 version, command, or length")
      else do
        let payload ← readBytes length
        liftM (parseV2 familyProtocol payload) : Fallible ByteStream Error SocketAddr)
      (maximum - 16) := by
    intro versionCommand familyProtocol length
    split
    · exact (TakesAtMost.throw _).mono (Nat.zero_le _)
    · rename_i accepted
      exact ((TakesAtMost.readExact _ length).bind (fun _ => TakesAtMost.lift _)).mono (by omega)
  exact (takesAtMost_readU8.bind (fun versionCommand =>
    takesAtMost_readU8.bind (fun familyProtocol =>
      short.bind (body versionCommand familyProtocol)))).mono (by omega)

theorem takesAtMost_readProxyHeader (parser : IpParser) {maximum : Nat} (least : 16 ≤ maximum) :
    TakesAtMost (readProxyHeader parser maximum) maximum := by
  have total : 12 + (maximum - 12) = maximum := by omega
  rw [← total]
  apply (TakesAtMost.readExact (Error.io .unexpectedEof) 12).bind_returned
  intro stream start rest called
  rw [total]
  by_cases binary : start = v2Signature
  · rw [if_pos binary]
    exact takesAtMost_readV2 least
  · rw [if_neg binary]
    by_cases text : v1Start.isPrefixOf start = true
    · rw [if_pos text, readV1, length_readExact called]
      exact (takesAtMost_readLine _ _).bind (fun _ => TakesAtMost.lift _)
    · rw [if_neg text]
      exact (TakesAtMost.throw _).mono (Nat.zero_le _)

end Bounds

section TextHeader

structure V1Header (parser : IpParser) where
  protocol : List Char
  source : List Char
  destination : List Char
  sourceIp : IpAddr
  destinationIp : IpAddr
  sourcePort : UInt16
  destinationPort : UInt16
  family : familyMatches protocol sourceIp destinationIp = true
  isSource : parser.parse source = some sourceIp
  isDestination : parser.parse destination = some destinationIp
  plain : ∀ letter ∈ source ++ destination,
    letter.toNat ≤ 127 ∧ isAsciiWhitespace letter = false
  sourceOpen : sourcePort ≠ 0
  destinationOpen : destinationPort ≠ 0

namespace V1Header

variable {parser : IpParser}
variable (header : V1Header parser)

def fields (header : V1Header parser) : List (List Char) :=
  ["PROXY".toList, header.protocol, header.source, header.destination,
    Nat.toDigits 10 header.sourcePort.toNat, Nat.toDigits 10 header.destinationPort.toNat]

def line (header : V1Header parser) : List Char := [' '].intercalate header.fields

def bytes (header : V1Header parser) : List UInt8 :=
  asciiBytes header.line ++ crlf

theorem protocol_eq :
    header.protocol = "TCP4".toList ∨ header.protocol = "TCP6".toList := by
  have family := header.family
  cases source : header.sourceIp <;> cases destination : header.destinationIp <;>
    simp only [source, destination, familyMatches, decide_eq_true_eq] at family
  · exact .inl family
  · cases family
  · cases family
  · exact .inr family

theorem plain_fields :
    ∀ field ∈ header.fields, field ≠ [] ∧
      ∀ letter ∈ field, letter.toNat ≤ 127 ∧ isAsciiWhitespace letter = false := by
  have digits : ∀ value, Nat.toDigits 10 value ≠ [] ∧ ∀ letter ∈ Nat.toDigits 10 value,
      letter.toNat ≤ 127 ∧ isAsciiWhitespace letter = false := by
    intro value
    refine ⟨Nat.toDigits_ne_nil, fun letter listed => ?_⟩
    have digit := isDigit_toDigits value letter listed
    constructor
    · simp only [Char.isDigit, Bool.and_eq_true, decide_eq_true_eq] at digit
      exact Nat.le_trans (UInt32.le_iff_toNat_le.mp digit.2) (by decide)
    · simp only [isAsciiWhitespace, Bool.or_eq_false_iff, beq_eq_false_iff_ne]
      refine ⟨⟨⟨⟨?_, ?_⟩, ?_⟩, ?_⟩, ?_⟩ <;>
        (rintro rfl; exact absurd digit (by decide))
  have filled : ∀ {text ip}, parser.parse text = some ip → text ≠ [] := by
    rintro _ _ parsed rfl
    rw [parser.empty] at parsed
    cases parsed
  intro field listed
  simp only [fields, mem_cons, not_mem_nil, or_false] at listed
  rcases listed with rfl | rfl | rfl | rfl | rfl | rfl
  · exact ⟨by decide, by simp [isAsciiWhitespace]⟩
  · rcases header.protocol_eq with same | same
    all_goals
      rw [same]
      exact ⟨by decide, by simp [isAsciiWhitespace]⟩
  · exact ⟨filled header.isSource, fun letter inside =>
      header.plain letter (mem_append_left _ inside)⟩
  · exact ⟨filled header.isDestination, fun letter inside =>
      header.plain letter (mem_append_right _ inside)⟩
  · exact digits _
  · exact digits _

theorem plain_line :
    ∀ letter ∈ header.line, letter.toNat ≤ 127 ∧ letter ≠ '\n' := by
  have joined : ∀ texts : List (List Char),
      (∀ text ∈ texts, ∀ letter ∈ text, letter.toNat ≤ 127 ∧ letter ≠ '\n') →
      ∀ letter ∈ [' '].intercalate texts, letter.toNat ≤ 127 ∧ letter ≠ '\n' := by
    intro texts plain letter listed
    induction texts with
    | nil => cases listed
    | cons first texts ih =>
      have rest := ih (fun text inside => plain text (mem_cons_of_mem _ inside))
      cases texts with
      | nil =>
        rw [intercalate_singleton] at listed
        exact plain first mem_cons_self letter listed
      | cons =>
        rw [intercalate_cons_cons, append_assoc] at listed
        rcases mem_append.mp listed with inside | listed
        · exact plain first mem_cons_self letter inside
        · rcases mem_append.mp listed with blank | listed
          · cases mem_singleton.mp blank
            exact ⟨by decide, by decide⟩
          · exact rest listed
  apply joined
  intro text listed letter inside
  obtain ⟨ascii, visible⟩ := (header.plain_fields text listed).2 letter inside
  refine ⟨ascii, ?_⟩
  rintro rfl
  exact absurd visible (by decide)

theorem split_line :
    splitAsciiWhitespace header.line = header.fields := by
  have split : ∀ (first : List Char) (texts : List (List Char)),
      (∀ text ∈ first :: texts, ∀ letter ∈ text, isAsciiWhitespace letter = false) →
      ([' '].intercalate (first :: texts)).splitOnP isAsciiWhitespace = first :: texts := by
    intro first texts plain
    induction texts generalizing first with
    | nil =>
      rw [intercalate_singleton]
      exact splitOnP_eq_singleton (plain first mem_cons_self)
    | cons second _ ih =>
      rw [intercalate_cons_cons, append_assoc, singleton_append,
        splitOnP_append_cons_of_forall_mem (plain first mem_cons_self) ' ' rfl,
        ih second (fun text listed => plain text (mem_cons_of_mem _ listed))]
  have plain := header.plain_fields
  rw [splitAsciiWhitespace, line]
  rw [show header.fields = "PROXY".toList :: header.fields.tail from rfl] at plain ⊢
  rw [split _ _ (fun text listed letter inside => ((plain text listed).2 letter inside).2)]
  rw [filter_eq_self]
  intro text listed
  exact decide_eq_true (plain text listed).1

theorem trim_line :
    trimLineEnds (header.line ++ ['\r', '\n']) = header.line := by
  have kept : ∀ text : List Char, '\n' ∉ text → dropLineEnds text = text := by
    intro text none
    unfold dropLineEnds
    split
    · exact absurd mem_cons_self none
    · rfl
  have none : '\n' ∉ header.line.reverse := by
    intro listed
    exact (header.plain_line _ (mem_reverse.mp listed)).2 rfl
  rw [trimLineEnds, reverse_append]
  change (dropLineEnds header.line.reverse).reverse = header.line
  rw [kept _ none, reverse_reverse]

theorem parsePort_digits {port : UInt16} (nonzero : port ≠ 0) :
    parsePort (Nat.toDigits 10 port.toNat) = .ok port := by
  have bounded : port.toNat ≤ 65535 := by
    have := port.toNat_lt
    omega
  have positive : port.toNat ≠ 0 := fun zero => nonzero (UInt16.toNat_inj.mp zero)
  have kept : (some port.toNat).filter (fun value => value ≠ 0) = some port.toNat := by
    simp [positive]
  simp only [parsePort, parseUnsigned_toDigits bounded, kept, UInt16.ofNat_toNat]

theorem bytes_eq :
    header.bytes = asciiBytes (header.line ++ ['\r', '\n']) := by
  rw [asciiBytes, map_append]
  rfl

theorem parseV1_bytes :
    parseV1 parser header.bytes =
      .ok { ip := canonicalIp header.sourceIp, port := header.sourcePort } := by
  have ascii : ∀ letter ∈ header.line ++ ['\r', '\n'], letter.toNat ≤ 127 := by
    intro letter listed
    rcases mem_append.mp listed with inside | ending
    · exact (header.plain_line letter inside).1
    · rcases mem_pair.mp ending with rfl | rfl <;> decide
  rw [parseV1, bytes_eq, fromUTF8_ascii ascii]
  simp only [String.toList_ofList, header.trim_line, header.split_line, fields, header.isSource,
    header.isDestination, header.family, parsePort_digits header.sourceOpen,
    parsePort_digits header.destinationOpen]
  rfl

end V1Header

theorem reads_readU8 (byte : UInt8) : Reads readU8 [byte] byte := by
  have read : Reads (readBytes 1) [byte] [byte] := Reads.readExact _ rfl
  change Reads readU8 ([byte] ++ []) byte
  exact read.bind (Reads.pure byte)

/-- A line is read up to its end when there is no line feed in it. -/
theorem reads_readLine {text start rest : List UInt8} {room : Nat} (single : 10 ∉ text)
    (joined : start ++ rest = text ++ crlf) (enough : rest.length ≤ room) :
    Reads (readLine room start) rest (start ++ rest) := by
  induction rest generalizing start room with
  | nil =>
    have ended : crlf.isSuffixOf start = true := by
      rw [append_nil] at joined
      rw [isSuffixOf_iff_suffix, joined]
      exact suffix_append _ _
    rw [append_nil]
    cases room with
    | zero | succ =>
      rw [readLine, if_pos ended]
      exact Reads.pure start
  | cons byte _ ih =>
    obtain ⟨room, rfl⟩ : ∃ smaller, room = smaller + 1 := by
      rw [length_cons] at enough
      exact ⟨room - 1, by omega⟩
    -- a line feed inside `start` would be one before the end of the line
    have incomplete : ¬crlf.isSuffixOf start = true := by
      rw [isSuffixOf_iff_suffix]
      intro ended
      have feed : 10 ∈ start := ended.subset (by decide)
      have whole : start <+: text ++ crlf := by
        rw [← joined]
        exact prefix_append _ _
      have shorter : text ++ [13] <+: text ++ crlf := ⟨[10], by rw [append_assoc]; rfl⟩
      have within : start <+: text ++ [13] := by
        apply prefix_of_prefix_length_le whole shorter
        have lengths := congrArg length joined
        simp only [length_append, length_cons, crlf] at lengths ⊢
        omega
      rcases mem_append.mp (within.subset feed) with inside | isReturn
      · exact single inside
      · exact absurd (mem_singleton.mp isReturn) (by decide)
    have continues := @ih (start ++ [byte]) room (by rw [append_assoc]; exact joined)
      (by rw [length_cons] at enough; omega)
    rw [append_assoc] at continues
    rw [readLine, if_neg incomplete]
    exact (reads_readU8 byte).bind continues

theorem V1Header.start_bytes {parser : IpParser} (header : V1Header parser) :
    12 ≤ header.bytes.length ∧ v1Start <+: header.bytes.take 12 := by
  have protocol : header.protocol.length = 4 := by
    rcases header.protocol_eq with same | same <;> rw [same] <;> rfl
  obtain ⟨rest, opening, long⟩ :
      ∃ rest, header.line = "PROXY ".toList ++ rest ∧ 4 ≤ rest.length := by
    refine ⟨[' '].intercalate header.fields.tail, ?_, ?_⟩
    · rw [line]
      rfl
    · rw [fields, tail_cons, intercalate_cons_cons]
      simp only [length_append]
      omega
  have bytes : header.bytes = v1Start ++ (asciiBytes rest ++ crlf) := by
    rw [V1Header.bytes, opening]
    rfl
  have six : v1Start.length = 6 := by decide
  constructor
  · rw [bytes]
    simp only [length_append, asciiBytes, length_map, crlf, length_cons]
    omega
  · rw [bytes]
    exact prefix_append _ _

theorem reads_text {parser : IpParser} {maximum : Nat} (header : V1Header parser)
    (fits : header.bytes.length ≤ maximum) :
    Reads (readProxyHeader parser maximum) header.bytes
      { ip := canonicalIp header.sourceIp, port := header.sourcePort } := by
  obtain ⟨long, opening⟩ := header.start_bytes
  have length : (header.bytes.take 12).length = 12 := length_take_of_le long
  have text : ¬header.bytes.take 12 = v2Signature := by
    intro binary
    rw [binary] at opening
    exact absurd ( isPrefixOf_iff_prefix.mpr opening) (by decide)
  have single : 10 ∉ asciiBytes header.line := by
    intro listed
    obtain ⟨letter, inside, isFeed⟩ := mem_map.mp listed
    obtain ⟨ascii, other⟩ := header.plain_line letter inside
    have code := congrArg UInt8.toNat isFeed
    rw [UInt8.toNat_ofNat'] at code
    have same : letter.toNat = 10 := by
      simp only [UInt8.reduceToNat] at code
      omega
    exact other (Char.toNat_inj.mp same)
  have line : Reads (readLine (maximum - 12) (header.bytes.take 12)) (header.bytes.drop 12)
      (header.bytes.take 12 ++ header.bytes.drop 12) :=
    reads_readLine single (take_append_drop _ _) (by rw [length_drop]; omega)
  rw [take_append_drop] at line
  have start : Reads (readBytes 12) (header.bytes.take 12) (header.bytes.take 12) :=
    Reads.readExact _ length
  rw [← take_append_drop 12 header.bytes]
  apply start.bind
  rw [readV1, length, ← append_nil (header.bytes.drop 12)]
  exact line.bind (Reads.lift header.parseV1_bytes)

end TextHeader

section BinaryHeader

structure V2Header (size : Nat) where
  source : Vector UInt8 size
  destination : Vector UInt8 size
  sourcePort : UInt16
  destinationPort : UInt16
  extra : List UInt8
  sourceOpen : sourcePort ≠ 0
  short : 2 * size + 4 + extra.length < 2 ^ 16

namespace V2Header

variable {size : Nat}
variable (header : V2Header size)

def payload (header : V2Header size) : List UInt8 :=
  header.source.toList ++ (header.destination.toList ++
    (putUint 2 header.sourcePort.toNat ++ (putUint 2 header.destinationPort.toNat ++ header.extra)))

def bytes (family : UInt8) (header : V2Header size) : List UInt8 :=
  v2Signature ++ ([0x21] ++ ([family] ++ (putUint 2 header.payload.length ++ header.payload)))

theorem length_payload :
    header.payload.length = 2 * size + 4 + header.extra.length := by
  simp only [payload, length_append, Vector.length_toList, length_putUint]
  omega

theorem source_payload : octets size header.payload = header.source := by
  apply Vector.ext
  intro index bound
  have inside : index < header.source.toList.length := by rwa [Vector.length_toList]
  simp only [octets, Vector.getElem_ofFn, payload]
  rw [getD_append _ _ _ _ inside, getD_eq_getElem _ _ inside, Vector.getElem_toList]

theorem port_payload :
    uintOfBytes ((header.payload.drop (2 * size)).take 2) = header.sourcePort.toNat := by
  have front : header.payload.drop (2 * size) = putUint 2 header.sourcePort.toNat ++
      (putUint 2 header.destinationPort.toNat ++ header.extra) := by
    rw [payload, ← append_assoc]
    apply drop_left'
    simp only [length_append, Vector.length_toList]
    omega
  rw [front, take_left' (length_putUint _ _)]
  exact uintOfBytes_putUint _ _ header.sourcePort.toNat_lt

theorem port_ne_zero : header.sourcePort.toNat ≠ 0 :=
  fun zero => header.sourceOpen (UInt16.toNat_inj.mp zero)

theorem parseV2_v4 (header : V2Header 4) :
    parseV2 0x11 header.payload =
      .ok { ip := .v4 header.source, port := header.sourcePort } := by
  have long : 12 ≤ header.payload.length := by
    rw [length_payload]
    omega
  rw [parseV2, if_pos ⟨rfl, long⟩]
  simp only [header.port_payload, if_neg header.port_ne_zero, source_payload, UInt16.ofNat_toNat]

theorem parseV2_v6 (header : V2Header 16) :
    parseV2 0x21 header.payload =
      .ok { ip := canonicalIp (.v6 header.source), port := header.sourcePort } := by
  have long : 36 ≤ header.payload.length := by
    rw [length_payload]
    omega
  rw [parseV2, if_neg (by simp), if_pos ⟨rfl, long⟩]
  simp only [header.port_payload, if_neg header.port_ne_zero, source_payload, UInt16.ofNat_toNat]

end V2Header

theorem reads_readU16 {value : Nat} (small : value < 2 ^ 16) :
    Reads readU16 (putUint 2 value) value := by
  have read : Reads (readBytes 2) (putUint 2 value) (putUint 2 value) :=
    Reads.readExact _ (length_putUint 2 value)
  rw [readU16]
  apply read.bind
  rw [uintOfBytes_putUint 2 value small]
  exact Reads.pure value

theorem reads_binary {parser : IpParser} {maximum size : Nat} {family : UInt8}
    {header : V2Header size} {address : SocketAddr}
    (fits : (header.bytes family).length ≤ maximum)
    (parsed : parseV2 family header.payload = .ok address) :
    Reads (readProxyHeader parser maximum) (header.bytes family) address := by
  have small : header.payload.length < 2 ^ 16 := by
    rw [header.length_payload]
    exact header.short
  have room : header.payload.length + 16 ≤ maximum := by
    simp only [V2Header.bytes, length_append, length_putUint, v2Signature, length_cons,
      length_nil] at fits
    omega
  have start : Reads (readBytes 12) v2Signature v2Signature := Reads.readExact _ rfl
  have payload : Reads (readBytes header.payload.length) header.payload header.payload :=
    Reads.readExact _ rfl
  have block : Reads (readBytes header.payload.length >>= fun payload =>
      liftM (parseV2 family payload)) (header.payload ++ []) address :=
    payload.bind (Reads.lift parsed)
  rw [append_nil] at block
  apply start.bind
  rw [if_pos rfl, readV2]
  apply (reads_readU8 0x21).bind
  apply (reads_readU8 family).bind
  apply (reads_readU16 small).bind
  rw [if_neg (by simp; omega)]
  exact block

end BinaryHeader

inductive ProxyHeader (parser : IpParser)
  | v1 (header : V1Header parser)
  | v2Ipv4 (header : V2Header 4)
  | v2Ipv6 (header : V2Header 16)

namespace ProxyHeader

variable {parser : IpParser}

def bytes : ProxyHeader parser → List UInt8
  | .v1 header => header.bytes
  | .v2Ipv4 header => header.bytes 0x11
  | .v2Ipv6 header => header.bytes 0x21

def address : ProxyHeader parser → SocketAddr
  | .v1 header => { ip := canonicalIp header.sourceIp, port := header.sourcePort }
  | .v2Ipv4 header => { ip := canonicalIp (.v4 header.source), port := header.sourcePort }
  | .v2Ipv6 header => { ip := canonicalIp (.v6 header.source), port := header.sourcePort }

end ProxyHeader

/-- The reader takes a header that fits off the stream, and nothing behind it, and no stream
makes it take more than it may. -/
theorem proxy_header_consumed_exactly (parser : IpParser) (maximum : Nat)
    (least : 16 ≤ maximum) :
    (∀ header : ProxyHeader parser, header.bytes.length ≤ maximum →
      ∀ stream after, stream.bytes = header.bytes ++ after →
        ∃ rest, (readProxyHeader parser maximum).call stream = (.ok header.address, rest) ∧
          rest.bytes = after) ∧
    ∀ stream, stream.bytes.length ≤
      ((readProxyHeader parser maximum).call stream).2.bytes.length + maximum := by
  refine ⟨?_, takesAtMost_readProxyHeader parser least⟩
  intro header fits
  cases header with
  | v1 header => exact reads_text header fits
  | v2Ipv4 header => exact reads_binary fits header.parseV2_v4
  | v2Ipv6 header => exact reads_binary fits header.parseV2_v6

/-- A binary header without extra fields, in front of a request that arrives in two pieces. -/
theorem proxy_header_consumed_sample :
    ∃ rest, (readProxyHeader sampleParser 1024).call
        ⟨[v2Signature ++ [0x21, 0x11, 0, 12, 192, 0, 2, 9, 10, 0, 0, 1],
          [0xc3, 0x50, 0x01, 0xbb, 71, 69, 84]]⟩ =
          (.ok { ip := .v4 #v[192, 0, 2, 9], port := 50000 }, rest) ∧ rest.bytes = [71, 69, 84] :=
  (proxy_header_consumed_exactly sampleParser 1024 (by decide)).1
    (.v2Ipv4 { source := #v[192, 0, 2, 9], destination := #v[10, 0, 0, 1], sourcePort := 50000,
               destinationPort := 443, extra := [], sourceOpen := by decide, short := by decide })
    (by decide) _ _ (by decide)

end Elura
