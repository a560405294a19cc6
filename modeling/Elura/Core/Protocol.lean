import Elura.Basis.BigEndian
import Elura.Basis.Rust
import Elura.Core.Values

/-!
The binary ELR2 frame: a 28-byte header of big-endian fields and a payload.
`decodeMessage` reads an already delimited message, `decode` the front of a
stream buffer. Both run the same header checks, which are `decodeHeader` here.
-/

namespace Elura

open Fallible List

def magic : Nat := 0x454C5232
def version : Nat := 2
def headerLen : Nat := 28
def defaultMaxPayload : Nat := 2 ^ 20

inductive FrameKind
  | request
  | response
  | push
  | error
  deriving DecidableEq, Repr

def FrameKind.toByte : FrameKind → Nat
  | .request => 1
  | .response => 2
  | .push => 3
  | .error => 4

def FrameKind.tryFrom : Nat → Except Error FrameKind
  | 1 => .ok .request
  | 2 => .ok .response
  | 3 => .ok .push
  | 4 => .ok .error
  | _ => .error (.invalidFrame "unknown frame kind")

structure Frame where
  kind : FrameKind
  flags : UInt8
  route : UInt32
  requestId : UInt64
  sequence : UInt32
  payload : List UInt8
  deriving DecidableEq, Repr

def Frame.request (route : UInt32) (requestId : UInt64) (payload : List UInt8) :
    Except Error Frame :=
  if route = 0 then .error (.invalidFrame "route must be non-zero")
  else if requestId = 0 then .error (.invalidFrame "request id must be non-zero")
  else .ok { kind := .request, flags := 0, route, requestId, sequence := 0, payload }

def Frame.validate (frame : Frame) (maxPayload : Nat) : Except Error Unit :=
  if maxPayload < frame.payload.length then .error (.invalidFrame "payload is too large")
  else if frame.flags ≠ 0 then .error (.invalidFrame "unsupported frame flags")
  else if frame.route = 0 then .error (.invalidFrame "route must be non-zero")
  else
    match frame.kind with
    | .push =>
      if frame.requestId ≠ 0 then .error (.invalidFrame "push request id must be zero")
      else .ok ()
    | .request | .response | .error =>
      if frame.requestId = 0 then .error (.invalidFrame "request id must be non-zero")
      else .ok ()

structure FrameCodec where
  maxPayload : Nat
  positive : 0 < maxPayload
  bound : maxPayload ≤ 64 * 2 ^ 20

def FrameCodec.new (maxPayload : Nat) : Except Error FrameCodec :=
  if rejected : maxPayload = 0 ∨ 64 * 2 ^ 20 < maxPayload then
    .error (.invalidConfig "max payload must be in 1..=64MiB")
  else
    .ok { maxPayload, positive := by omega, bound := by omega }

def FrameCodec.default : FrameCodec where
  maxPayload := defaultMaxPayload
  positive := by decide
  bound := by decide

structure FrameHeader where
  kind : FrameKind
  flags : UInt8
  route : UInt32
  requestId : UInt64
  sequence : UInt32
  payloadLen : Nat
  deriving DecidableEq, Repr

def Frame.header (frame : Frame) : FrameHeader :=
  { kind := frame.kind, flags := frame.flags, route := frame.route, requestId := frame.requestId,
    sequence := frame.sequence, payloadLen := (UInt32.ofNat frame.payload.length).toNat }

def FrameHeader.frame (header : FrameHeader) (payload : List UInt8) : Frame :=
  { kind := header.kind, flags := header.flags, route := header.route,
    requestId := header.requestId, sequence := header.sequence, payload }

def FrameHeader.bytes (header : FrameHeader) : List UInt8 :=
  putUint 4 magic ++ (putUint 2 version ++ (putUint 1 header.kind.toByte ++
    (putUint 1 header.flags.toNat ++ (putUint 4 header.route.toNat ++
      (putUint 8 header.requestId.toNat ++ (putUint 4 header.sequence.toNat ++
        putUint 4 header.payloadLen))))))

namespace FrameCodec

def decodeHeader (codec : FrameCodec) (header : List UInt8) : Except IoError FrameHeader :=
  let (magicField, header) := getUint 4 header
  if magicField ≠ magic then
    .error { kind := .invalidData, source := .message "invalid Elura magic" }
  else
    let (versionField, header) := getUint 2 header
    if versionField ≠ version then
      .error { kind := .invalidData, source := .message "unsupported Elura version" }
    else
      let (kindField, header) := getUint 1 header
      match FrameKind.tryFrom kindField with
      | .error error => .error { kind := .invalidData, source := .error error }
      | .ok kind =>
        let (flags, header) := getUint 1 header
        let (route, header) := getUint 4 header
        let (requestId, header) := getUint 8 header
        let (sequence, header) := getUint 4 header
        let (payloadLen, _) := getUint 4 header
        if codec.maxPayload < payloadLen then
          .error { kind := .invalidData, source := .message "Elura payload is too large" }
        else
          .ok { kind, flags := .ofNat flags, route := .ofNat route,
                requestId := .ofNat requestId, sequence := .ofNat sequence, payloadLen }

def checked (codec : FrameCodec) (kind : IoErrorKind) (frame : Frame) : Except IoError Unit :=
  match frame.validate codec.maxPayload with
  | .error error => .error { kind, source := .error error }
  | .ok () => .ok ()

def decodeMessage (codec : FrameCodec) (source : List UInt8) : Except IoError Frame := do
  if source.length < headerLen then
    throw { kind := .unexpectedEof, source := .message "incomplete Elura frame" }
  let header ← codec.decodeHeader (source.take headerLen)
  if source.length ≠ headerLen + header.payloadLen then
    throw { kind := .invalidData
            source := .message "Elura message must contain exactly one frame" }
  let frame := header.frame (source.drop headerLen)
  codec.checked .invalidData frame
  return frame

/-- The stream decoder on its buffer. A frame that fails validation has already
been taken off the buffer. -/
def decode (codec : FrameCodec) : Fallible (List UInt8) IoError (Option Frame) := do
  let source ← get
  if source.length < headerLen then
    return none
  let header ← liftM (codec.decodeHeader (source.take headerLen))
  if source.length < headerLen + header.payloadLen then
    return none
  let source := source.drop headerLen
  set (source.drop header.payloadLen)
  let frame := header.frame (source.take header.payloadLen)
  liftM (codec.checked .invalidData frame)
  return some frame

def encode (codec : FrameCodec) (frame : Frame) : Fallible (List UInt8) IoError Unit := do
  liftM (codec.checked .invalidInput frame)
  modify (fun destination => destination ++ (frame.header.bytes ++ frame.payload))

end FrameCodec

theorem Frame.validate_ok_iff {frame : Frame} {maxPayload : Nat} :
    frame.validate maxPayload = .ok () ↔ frame.payload.length ≤ maxPayload ∧ frame.flags = 0 ∧
      frame.route ≠ 0 ∧ (frame.kind = .push ↔ frame.requestId = 0) := by
  rw [Frame.validate]
  by_cases long : maxPayload < frame.payload.length
  · rw [if_pos long]
    constructor
    · intro accepted
      cases accepted
    · intro accepted
      omega
  · rw [if_neg long]
    by_cases flags : frame.flags = 0
    · rw [if_neg (not_not.mpr flags)]
      by_cases route : frame.route = 0
      · rw [if_pos route]
        simp [route]
      · rw [if_neg route]
        have short := Nat.not_lt.mp long
        cases kind : frame.kind with
        | push | request | response | error =>
          by_cases id : frame.requestId = 0 <;> simp [flags, route, short]
    · rw [if_pos flags]
      simp [flags]

section Header

@[simp] theorem FrameHeader.length_bytes (header : FrameHeader) :
    header.bytes.length = headerLen := by
  simp [FrameHeader.bytes, headerLen]

theorem FrameKind.tryFrom_toByte (kind : FrameKind) :
    FrameKind.tryFrom kind.toByte = .ok kind := by
  cases kind <;> rfl

theorem FrameKind.toByte_of_tryFrom {value : Nat} {kind : FrameKind}
    (found : FrameKind.tryFrom value = .ok kind) : kind.toByte = value := by
  unfold FrameKind.tryFrom at found
  split at found <;> first | (cases found; rfl) | cases found

theorem FrameCodec.decodeHeader_bytes (codec : FrameCodec) (header : FrameHeader)
    (bound : header.payloadLen ≤ codec.maxPayload) :
    codec.decodeHeader header.bytes = .ok header := by
  have limit := codec.bound
  have kindBound : header.kind.toByte < 256 ^ 1 := by
    cases header.kind <;> decide
  have payloadBound : header.payloadLen < 256 ^ 4 := by omega
  have magicField := fun rest => getUint_putUint 4 magic rest (by decide)
  have versionField := fun rest => getUint_putUint 2 version rest (by decide)
  have kindField := fun rest => getUint_putUint 1 header.kind.toByte rest kindBound
  have flags := fun rest => getUint_putUint 1 header.flags.toNat rest header.flags.toNat_lt
  have route := fun rest => getUint_putUint 4 header.route.toNat rest header.route.toNat_lt
  have requestId := fun rest =>
    getUint_putUint 8 header.requestId.toNat rest header.requestId.toNat_lt
  have sequence := fun rest =>
    getUint_putUint 4 header.sequence.toNat rest header.sequence.toNat_lt
  have payloadLen := getUint_putUint 4 header.payloadLen [] payloadBound
  rw [append_nil] at payloadLen
  simp only [decodeHeader, FrameHeader.bytes, magicField, versionField, kindField, flags, route,
    requestId, sequence, payloadLen, FrameKind.tryFrom_toByte, ne_eq, not_true_eq_false, if_false,
    if_neg (Nat.not_lt.mpr bound), UInt8.ofNat_toNat, UInt32.ofNat_toNat, UInt64.ofNat_toNat]

theorem FrameCodec.bytes_of_decodeHeader {codec : FrameCodec} {source : List UInt8}
    {header : FrameHeader} (exact : source.length = headerLen)
    (accepted : codec.decodeHeader source = .ok header) :
    header.bytes = source ∧ header.payloadLen ≤ codec.maxPayload := by
  rw [headerLen] at exact
  rcases read₁ : getUint 4 source with ⟨magicField, cursor₁⟩
  obtain ⟨join₁, _, left₁⟩ := getUint_eq read₁ (by omega)
  rcases read₂ : getUint 2 cursor₁ with ⟨versionField, cursor₂⟩
  obtain ⟨join₂, _, left₂⟩ := getUint_eq read₂ (by omega)
  rcases read₃ : getUint 1 cursor₂ with ⟨kindField, cursor₃⟩
  obtain ⟨join₃, _, left₃⟩ := getUint_eq read₃ (by omega)
  rcases read₄ : getUint 1 cursor₃ with ⟨flags, cursor₄⟩
  obtain ⟨join₄, flagsBound, left₄⟩ := getUint_eq read₄ (by omega)
  rcases read₅ : getUint 4 cursor₄ with ⟨route, cursor₅⟩
  obtain ⟨join₅, routeBound, left₅⟩ := getUint_eq read₅ (by omega)
  rcases read₆ : getUint 8 cursor₅ with ⟨requestId, cursor₆⟩
  obtain ⟨join₆, requestBound, left₆⟩ := getUint_eq read₆ (by omega)
  rcases read₇ : getUint 4 cursor₆ with ⟨sequence, cursor₇⟩
  obtain ⟨join₇, sequenceBound, left₇⟩ := getUint_eq read₇ (by omega)
  rcases read₈ : getUint 4 cursor₇ with ⟨payloadLen, cursor₈⟩
  obtain ⟨join₈, _, left₈⟩ := getUint_eq read₈ (by omega)
  have finished : cursor₈ = [] := length_eq_zero_iff.mp (by omega)
  simp only [decodeHeader, read₁, read₂, read₃, read₄, read₅, read₆, read₇, read₈] at accepted
  cases kind : FrameKind.tryFrom kindField with
  | error =>
    simp only [kind] at accepted
    split_ifs at accepted
  | ok =>
    simp only [kind] at accepted
    split_ifs at accepted with otherMagic otherVersion large
    cases accepted
    refine ⟨?_, Nat.not_lt.mp large⟩
    simp only [not_not] at otherMagic otherVersion
    subst otherMagic otherVersion finished
    have flagsField : flags % 2 ^ 8 = flags := Nat.mod_eq_of_lt flagsBound
    have routeField : route % 2 ^ 32 = route := Nat.mod_eq_of_lt routeBound
    have requestField : requestId % 2 ^ 64 = requestId := Nat.mod_eq_of_lt requestBound
    have sequenceField : sequence % 2 ^ 32 = sequence := Nat.mod_eq_of_lt sequenceBound
    simp only [FrameHeader.bytes, FrameKind.toByte_of_tryFrom kind, UInt8.toNat_ofNat',
      UInt32.toNat_ofNat', UInt64.toNat_ofNat', flagsField, routeField, requestField,
      sequenceField]
    rw [join₁, join₂, join₃, join₄, join₅, join₆, join₇, join₈, append_nil]

end Header

namespace FrameCodec

section Frames

variable {codec : FrameCodec} {frame : Frame} {source : List UInt8}

theorem checked_ok {kind : IoErrorKind} :
    codec.checked kind frame = .ok () ↔ frame.validate codec.maxPayload = .ok () := by
  unfold checked
  cases frame.validate codec.maxPayload with
  | error | ok => simp

theorem payload_bound (valid : frame.validate codec.maxPayload = .ok ()) :
    frame.payload.length ≤ codec.maxPayload ∧
      frame.header.payloadLen = frame.payload.length := by
  have limit := codec.bound
  have short : frame.payload.length ≤ codec.maxPayload := by
    by_contra long
    simp [Frame.validate, Nat.not_le.mp long] at valid
  refine ⟨short, ?_⟩
  rw [Frame.header, UInt32.toNat_ofNat', Nat.mod_eq_of_lt (by omega)]

def frameBytes (frame : Frame) : List UInt8 := frame.header.bytes ++ frame.payload

theorem encode_eq_ok {destination encoded : List UInt8} :
    (codec.encode frame).call destination = (.ok (), encoded) ↔
      frame.validate codec.maxPayload = .ok () ∧ encoded = destination ++ frameBytes frame := by
  simp only [encode, call_bind]
  cases outcome : codec.checked .invalidInput frame with
  | error =>
    have failed : frame.validate codec.maxPayload ≠ .ok () := by
      intro valid
      rw [checked_ok.mpr valid] at outcome
      cases outcome
    simp [failed]
  | ok =>
    have valid := checked_ok.mp outcome
    simp [valid, frameBytes, eq_comm]

theorem frameBytes_header {header : FrameHeader} {payload : List UInt8}
    (exact : payload.length = header.payloadLen) (bound : header.payloadLen ≤ codec.maxPayload) :
    frameBytes (header.frame payload) = header.bytes ++ payload := by
  have limit := codec.bound
  have same : (header.frame payload).header = header := by
    simp only [FrameHeader.frame, Frame.header]
    rw [UInt32.toNat_ofNat', Nat.mod_eq_of_lt (by omega), exact]
  rw [frameBytes, same]
  rfl

theorem decodeHeader_take (rest : List UInt8) (valid : frame.validate codec.maxPayload = .ok ()) :
    codec.decodeHeader ((frame.header.bytes ++ rest).take headerLen) = .ok frame.header := by
  obtain ⟨short, exact⟩ := payload_bound valid
  have front : (frame.header.bytes ++ rest).take headerLen = frame.header.bytes := by
    rw [take_append_of_le_length (by simp), take_of_length_le (by simp)]
  rw [front, decodeHeader_bytes codec frame.header (by omega)]

theorem drop_headerLen (header : FrameHeader) (rest : List UInt8) :
    (header.bytes ++ rest).drop headerLen = rest := by
  rw [drop_append_of_le_length (by simp), drop_eq_nil_of_le (by simp), nil_append]

theorem decodeMessage_eq_ok :
    codec.decodeMessage source = .ok frame ↔
      frame.validate codec.maxPayload = .ok () ∧ source = frameBytes frame := by
  simp only [decodeMessage, bind, Except.bind, pure, Except.pure]
  constructor
  · intro decoded
    split_ifs at decoded with short
    cases parsed : codec.decodeHeader (source.take headerLen) with
    | error => simp [parsed] at decoded
    | ok header =>
      simp only [parsed] at decoded
      obtain ⟨front, bound⟩ := bytes_of_decodeHeader (by simp; omega) parsed
      split_ifs at decoded with other
      cases outcome : codec.checked .invalidData (header.frame (source.drop headerLen)) with
      | error => simp [outcome] at decoded
      | ok =>
        simp only [outcome, Except.ok.injEq] at decoded
        subst frame
        refine ⟨checked_ok.mp outcome, ?_⟩
        rw [frameBytes_header (by simp; omega) bound, front, take_append_drop]
  · rintro ⟨valid, rfl⟩
    obtain ⟨short, exact⟩ := payload_bound valid
    have long : ¬(frame.header.bytes ++ frame.payload).length < headerLen := by simp
    have whole : ¬(frame.header.bytes ++ frame.payload).length ≠
        headerLen + frame.header.payloadLen := by simp [exact]
    simp only [frameBytes, decodeHeader_take _ valid, if_neg whole, drop_headerLen]
    have accepted : codec.checked .invalidData (frame.header.frame frame.payload) = .ok () :=
      checked_ok.mpr valid
    simp only [accepted]
    rfl

theorem call_decode (codec : FrameCodec) (source : List UInt8) :
    codec.decode.call source =
      if source.length < headerLen then (.ok none, source)
      else
        match codec.decodeHeader (source.take headerLen) with
        | .error error => (.error error, source)
        | .ok header =>
          if source.length < headerLen + header.payloadLen then (.ok none, source)
          else
            let frame := header.frame ((source.drop headerLen).take header.payloadLen)
            ((codec.checked .invalidData frame).map (fun _ => some frame),
              (source.drop headerLen).drop header.payloadLen) := by
  simp only [decode, call_bind, call_get, call_liftExcept, call_ite]
  cases codec.decodeHeader (source.take headerLen) with
  | error => rfl
  | ok header =>
    simp only
    cases codec.checked .invalidData
        (header.frame ((source.drop headerLen).take header.payloadLen)) with
    | error | ok => rfl

theorem decode_frameBytes (rest : List UInt8) (valid : frame.validate codec.maxPayload = .ok ()) :
    codec.decode.call (frameBytes frame ++ rest) = (.ok (some frame), rest) := by
  obtain ⟨short, exact⟩ := payload_bound valid
  have long : ¬(frame.header.bytes ++ (frame.payload ++ rest)).length < headerLen := by simp
  have whole : ¬(frame.header.bytes ++ (frame.payload ++ rest)).length <
      headerLen + frame.header.payloadLen := by
    simp [exact]
  have accepted : codec.checked .invalidData (frame.header.frame frame.payload) = .ok () :=
    checked_ok.mpr valid
  rw [call_decode, frameBytes, append_assoc, decodeHeader_take _ valid]
  simp only [if_neg whole, drop_headerLen]
  rw [exact, take_left, drop_left, accepted]
  rfl

theorem decode_partial {missing : List UInt8} (valid : frame.validate codec.maxPayload = .ok ())
    (incomplete : missing ≠ []) (cut : source ++ missing = frameBytes frame) :
    codec.decode.call source = (.ok none, source) := by
  obtain ⟨short, exact⟩ := payload_bound valid
  have total : source.length + missing.length = headerLen + frame.payload.length := by
    have lengths := congrArg length cut
    simpa [frameBytes] using lengths
  have positive := length_pos_of_ne_nil incomplete
  rw [call_decode]
  by_cases header : source.length < headerLen
  · rw [if_pos header]
  · have front : source.take headerLen = (frame.header.bytes ++ frame.payload).take headerLen := by
      rw [← frameBytes, ← cut, take_append_of_le_length (by omega)]
    have waiting : source.length < headerLen + frame.header.payloadLen := by omega
    rw [if_neg header, front, decodeHeader_take _ valid]
    exact if_pos waiting

/-- What a call that does not fail says about the buffer it was given. -/
theorem decode_ok {rest : List UInt8} {result : Option Frame}
    (decoded : codec.decode.call source = (.ok result, rest)) :
    match result with
    | none => rest = source
    | some frame =>
      frame.validate codec.maxPayload = .ok () ∧ source = frameBytes frame ++ rest := by
  rw [call_decode] at decoded
  split_ifs at decoded with short
  · cases decoded
    rfl
  · cases parsed : codec.decodeHeader (source.take headerLen) with
    | error => simp [parsed] at decoded
    | ok header =>
      simp only [parsed] at decoded
      split_ifs at decoded with waiting
      · cases decoded
        rfl
      · obtain ⟨front, bound⟩ := bytes_of_decodeHeader (by simp; omega) parsed
        cases outcome : codec.checked .invalidData
            (header.frame ((source.drop headerLen).take header.payloadLen)) with
        | error error => simp [outcome, Except.map] at decoded
        | ok _ =>
          simp only [outcome] at decoded
          obtain ⟨rfl, rfl⟩ := decoded
          refine ⟨checked_ok.mp outcome, ?_⟩
          rw [frameBytes_header (by simp; omega) bound, front, append_assoc,
            take_append_drop, take_append_drop]

end Frames

section Results

/-- Encoder, message decoder and stream decoder agree on one set of byte strings. -/
theorem frame_bijection (codec : FrameCodec) :
    (∀ frame encoded, (codec.encode frame).call [] = (.ok (), encoded) →
      codec.decodeMessage encoded = .ok frame) ∧
    (∀ bytes frame, codec.decodeMessage bytes = .ok frame →
      frame.validate codec.maxPayload = .ok () ∧
        (codec.encode frame).call [] = (.ok (), bytes)) ∧
    (∀ bytes frame, codec.decode.call bytes = (.ok (some frame), []) ↔
      codec.decodeMessage bytes = .ok frame) := by
  refine ⟨?_, ?_, ?_⟩
  · intro frame encoded accepted
    obtain ⟨valid, written⟩ := encode_eq_ok.mp accepted
    exact decodeMessage_eq_ok.mpr ⟨valid, written⟩
  · intro bytes frame decoded
    obtain ⟨valid, written⟩ := decodeMessage_eq_ok.mp decoded
    exact ⟨valid, encode_eq_ok.mpr ⟨valid, written⟩⟩
  · intro bytes frame
    rw [decodeMessage_eq_ok]
    constructor
    · intro decoded
      obtain ⟨valid, written⟩ := decode_ok decoded
      exact ⟨valid, by rw [written, append_nil]⟩
    · rintro ⟨valid, rfl⟩
      have whole := decode_frameBytes [] valid
      rwa [append_nil] at whole

theorem frame_bijection_heartbeat :
    FrameCodec.default.decodeMessage (frameBytes
      { kind := .request, flags := 0, route := 2, requestId := 9, sequence := 0, payload := [7] }) =
    .ok { kind := .request, flags := 0, route := 2, requestId := 9, sequence := 0,
          payload := [7] } :=
  (frame_bijection .default).1 _ _ (by decide)

end Results

end FrameCodec

end Elura
