import Elura.Core.Protocol

/-!
The frame codec of the client SDK, which is written independently of the server's: it reads
header fields by their offsets and checks the header of a message before its length. On every
input both codecs do the same.
-/

namespace Elura.Sdk

open Fallible List

def elr2Magic : Nat := 0x454c5232

def elr2Version : Nat := 2

def elr2HeaderLength : Nat := 28

def absoluteMaxPayload : Nat := 64 * 2 ^ 20

structure Elr2ProtocolError where
  message : String
  deriving DecidableEq, Repr

inductive FrameKind
  | request
  | response
  | push
  | error
  deriving DecidableEq, Repr

def FrameKind.toByte : FrameKind → Nat
  | .request => 1
  | .response => 2
  | .push => 3
  | .error => 4

def FrameKind.tryFrom : Nat → Except Elr2ProtocolError FrameKind
  | 1 => .ok .request
  | 2 => .ok .response
  | 3 => .ok .push
  | 4 => .ok .error
  | _ => .error ⟨"unknown frame kind"⟩

structure Elr2Frame where
  kind : FrameKind
  flags : UInt8
  route : UInt32
  requestId : UInt64
  sequence : UInt32
  payload : List UInt8
  deriving DecidableEq, Repr

def field (bytes : List UInt8) (start stop : Nat) : Nat :=
  uintOfBytes ((bytes.drop start).take (stop - start))

def validateLimit (maxPayload : Nat) : Except Elr2ProtocolError Unit :=
  if maxPayload = 0 ∨ absoluteMaxPayload < maxPayload then
    .error ⟨"max payload must be in 1..=64MiB"⟩
  else .ok ()

def validateHeader (header : List UInt8) (maxPayload : Nat) : Except Elr2ProtocolError Unit := do
  validateLimit maxPayload
  if header.length < elr2HeaderLength then throw ⟨"incomplete Elura frame"⟩
  if field header 0 4 ≠ elr2Magic then throw ⟨"invalid Elura magic"⟩
  if field header 4 6 ≠ elr2Version then throw ⟨"unsupported Elura version"⟩
  let _ ← FrameKind.tryFrom (field header 6 7)
  if maxPayload < field header 24 28 then throw ⟨"Elura payload is too large"⟩

def frameOf (kind : FrameKind) (message : List UInt8) : Elr2Frame where
  kind := kind
  flags := .ofNat (field message 7 8)
  route := .ofNat (field message 8 12)
  requestId := .ofNat (field message 12 20)
  sequence := .ofNat (field message 20 24)
  payload := message.drop elr2HeaderLength

def writeFrame (frame : Elr2Frame) : List UInt8 :=
  putUint 4 elr2Magic ++ putUint 2 elr2Version ++ putUint 1 frame.kind.toByte ++
    putUint 1 frame.flags.toNat ++ putUint 4 frame.route.toNat ++
    putUint 8 frame.requestId.toNat ++ putUint 4 frame.sequence.toNat ++
    putUint 4 (UInt32.ofNat frame.payload.length).toNat ++ frame.payload

structure ProtocolIoError where
  kind : IoErrorKind
  error : Elr2ProtocolError
  deriving DecidableEq, Repr

def protocolIoError {α : Type} : Except Elr2ProtocolError α → Except ProtocolIoError α
  | .ok value => .ok value
  | .error error => .error { kind := .invalidData, error }

namespace Elr2Codec

def validate (frame : Elr2Frame) (maxPayload : Nat) : Except Elr2ProtocolError Unit := do
  validateLimit maxPayload
  if maxPayload < frame.payload.length then throw ⟨"payload is too large"⟩
  if frame.flags ≠ 0 then throw ⟨"unsupported frame flags"⟩
  if frame.route = 0 then throw ⟨"route must be non-zero"⟩
  if frame.kind = .push then
    if frame.requestId ≠ 0 then throw ⟨"push request id must be zero"⟩
  else if frame.requestId = 0 then throw ⟨"request id must be non-zero"⟩

def encodeWithLimit (frame : Elr2Frame) (maxPayload : Nat) :
    Except Elr2ProtocolError (List UInt8) := do
  validate frame maxPayload
  return writeFrame frame

def decodeWithLimit (message : List UInt8) (maxPayload : Nat) :
    Except Elr2ProtocolError Elr2Frame := do
  validateHeader message maxPayload
  if message.length ≠ elr2HeaderLength + field message 24 28 then
    throw ⟨"Elura message must contain exactly one frame"⟩
  let kind ← FrameKind.tryFrom (field message 6 7)
  validate (frameOf kind message) maxPayload
  return frameOf kind message

def decode (maxPayload : Nat) : Fallible (List UInt8) ProtocolIoError (Option Elr2Frame) := do
  let source ← get
  if source.length < elr2HeaderLength then
    return none
  liftM (protocolIoError (validateHeader (source.take elr2HeaderLength) maxPayload))
  let total := elr2HeaderLength + field source 24 28
  if source.length < total then
    return none
  set (source.drop total)
  let frame ← liftM (protocolIoError (decodeWithLimit (source.take total) maxPayload))
  return some frame

def encode (maxPayload : Nat) (frame : Elr2Frame) :
    Fallible (List UInt8) ProtocolIoError Unit := do
  liftM (protocolIoError (validate frame maxPayload))
  modify (fun destination => destination ++ writeFrame frame)

end Elr2Codec

/-! The two codecs side by side. -/

def FrameKind.toServer : FrameKind → Elura.FrameKind
  | .request => .request
  | .response => .response
  | .push => .push
  | .error => .error

def Elr2Frame.toServer (frame : Elr2Frame) : Frame where
  kind := frame.kind.toServer
  flags := frame.flags
  route := frame.route
  requestId := frame.requestId
  sequence := frame.sequence
  payload := frame.payload

theorem FrameKind.toServer_bijective : Function.Bijective FrameKind.toServer := by
  constructor
  · intro left right same
    cases left <;> cases right <;> first | rfl | cases same
  · intro kind
    cases kind
    exacts [⟨.request, rfl⟩, ⟨.response, rfl⟩, ⟨.push, rfl⟩, ⟨.error, rfl⟩]

theorem Elr2Frame.toServer_bijective : Function.Bijective Elr2Frame.toServer := by
  constructor
  · intro left right same
    simp only [toServer, Frame.mk.injEq] at same
    obtain ⟨kind, rest⟩ := same
    have sameKind := FrameKind.toServer_bijective.1 kind
    cases left
    cases right
    simp only at sameKind rest
    simp only [sameKind, rest]
  · intro frame
    obtain ⟨kind, isKind⟩ := FrameKind.toServer_bijective.2 frame.kind
    refine ⟨{ frame with kind }, ?_⟩
    simp only [toServer, isKind]

theorem FrameKind.tryFrom_agrees (value : Nat) :
    (∃ kind, FrameKind.tryFrom value = .ok kind ∧
        Elura.FrameKind.tryFrom value = .ok kind.toServer) ∨
      (∃ error, FrameKind.tryFrom value = .error error) ∧
        ∃ error, Elura.FrameKind.tryFrom value = .error error := by
  match value with
  | 1 | 2 | 3 | 4 => exact .inl ⟨_, rfl, rfl⟩
  | 0 | _ + 5 => exact .inr ⟨⟨_, rfl⟩, ⟨_, rfl⟩⟩

theorem writeFrame_eq (frame : Elr2Frame) :
    writeFrame frame = FrameCodec.frameBytes frame.toServer := by
  have kind : frame.kind.toByte = frame.kind.toServer.toByte := by
    cases frame.kind <;> rfl
  simp only [writeFrame, kind]
  rfl

theorem field_take {bytes : List UInt8} {start stop limit : Nat} (inside : stop ≤ limit) :
    field (bytes.take limit) start stop = field bytes start stop := by
  simp only [field, drop_take, take_take]
  rw [Nat.min_eq_left (by omega)]

section Agreement

variable (codec : FrameCodec)
variable (frame : Elr2Frame)

theorem validateLimit_ok : validateLimit codec.maxPayload = .ok () := by
  have positive := codec.positive
  have bound := codec.bound
  rw [validateLimit, if_neg]
  simp only [absoluteMaxPayload]
  omega

theorem validate_ok :
    Elr2Codec.validate frame codec.maxPayload = .ok () ↔
      frame.toServer.validate codec.maxPayload = .ok () := by
  have push : frame.toServer.kind = .push ↔ frame.kind = .push := by
    cases kind : frame.kind <;> simp [Elr2Frame.toServer, FrameKind.toServer, kind]
  rw [Frame.validate_ok_iff, push]
  simp only [Elr2Codec.validate, validateLimit_ok, bind, Except.bind, pure, Except.pure]
  by_cases long : codec.maxPayload < frame.payload.length
  · rw [if_pos long]
    constructor
    · intro accepted
      cases accepted
    · intro accepted
      exact absurd accepted.1 (Nat.not_le.mpr long)
  · rw [if_neg long]
    by_cases flags : frame.flags = 0
    · by_cases route : frame.route = 0
      · simp [Elr2Frame.toServer, flags, route]
      · by_cases kind : frame.kind = .push <;> by_cases id : frame.requestId = 0 <;>
          simp [Elr2Frame.toServer, flags, route, id, Nat.not_lt.mp long]
    · simp [Elr2Frame.toServer, flags]

theorem headerLength_eq : elr2HeaderLength = headerLen := rfl

def headerOf (kind : FrameKind) (source : List UInt8) : FrameHeader where
  kind := kind.toServer
  flags := .ofNat (field source 7 8)
  route := .ofNat (field source 8 12)
  requestId := .ofNat (field source 12 20)
  sequence := .ofNat (field source 20 24)
  payloadLen := field source 24 28

theorem frame_headerOf (kind : FrameKind) (message : List UInt8) :
    (headerOf kind message).frame (message.drop headerLen) = (frameOf kind message).toServer :=
  rfl

theorem header_agrees {source : List UInt8} (long : elr2HeaderLength ≤ source.length) :
    (∃ kind, FrameKind.tryFrom (field source 6 7) = .ok kind ∧
      validateHeader source codec.maxPayload = .ok () ∧
      codec.decodeHeader (source.take headerLen) = .ok (headerOf kind source)) ∨
    (∃ error, validateHeader source codec.maxPayload = .error error) ∧
      ∃ error, codec.decodeHeader (source.take headerLen) = .error error := by
  have read : ∀ start width, start + width ≤ headerLen →
      uintOfBytes (((source.take headerLen).drop start).take width) =
        field source start (start + width) := by
    intro start width inside
    rw [← field_take inside, field, Nat.add_sub_cancel_left]
  have front : uintOfBytes ((source.take headerLen).take 4) = field source 0 4 :=
    read 0 4 (by decide)
  simp only [FrameCodec.decodeHeader, getUint, drop_drop, front, read _ _ (by decide : 4 + 2 ≤
    headerLen), read _ _ (by decide : 6 + 1 ≤ headerLen), read _ _ (by decide : 7 + 1 ≤ headerLen),
      read _ _ (by decide : 8 + 4 ≤ headerLen), read _ _ (by decide : 12 + 8 ≤ headerLen), read _ _
        (by decide : 20 + 4 ≤ headerLen), read _ _ (by decide : 24 + 4 ≤ headerLen)]
  simp only [validateHeader, validateLimit_ok, if_neg (Nat.not_lt.mpr long), bind, Except.bind,
    pure, Except.pure, elr2Magic, elr2Version, magic, version]
  by_cases sameMagic : field source 0 4 = 1162629682
  · by_cases sameVersion : field source 4 6 = 2
    · simp only [sameMagic, sameVersion, ne_eq, not_true_eq_false, if_false]
      rcases FrameKind.tryFrom_agrees (field source 6 7) with
        ⟨kind, own, server⟩ | ⟨⟨_, own⟩, ⟨_, server⟩⟩
      · simp only [own, server]
        by_cases large : codec.maxPayload < field source 24 28
        · simp only [if_pos large]
          exact .inr ⟨⟨_, rfl⟩, ⟨_, rfl⟩⟩
        · simp only [if_neg large]
          exact .inl ⟨kind, rfl, trivial, rfl⟩
      · simp only [own, server]
        exact .inr ⟨⟨_, rfl⟩, ⟨_, rfl⟩⟩
    · simp only [sameMagic, sameVersion, ne_eq]
      exact .inr ⟨⟨_, rfl⟩, ⟨_, rfl⟩⟩
  · simp only [sameMagic, ne_eq]
    exact .inr ⟨⟨_, rfl⟩, ⟨_, rfl⟩⟩

theorem validate_cases (kind : IoErrorKind) :
    Elr2Codec.validate frame codec.maxPayload = .ok () ∧
        codec.checked kind frame.toServer = .ok () ∨
      (∃ error, Elr2Codec.validate frame codec.maxPayload = .error error) ∧
        ∃ error, codec.checked kind frame.toServer = .error error := by
  have same := (validate_ok codec frame).trans (@FrameCodec.checked_ok codec frame.toServer kind).symm
  cases own : Elr2Codec.validate frame codec.maxPayload with
  | ok => exact .inl ⟨rfl, same.mp own⟩
  | error error =>
    cases server : codec.checked kind frame.toServer with
    | ok =>
      rw [same.mpr server] at own
      cases own
    | error other => exact .inr ⟨⟨error, rfl⟩, ⟨other, rfl⟩⟩

/-- A whole message is accepted by both codecs, with the same fields, or by neither. -/
theorem decode_agrees (message : List UInt8) :
    (Elr2Codec.decodeWithLimit message codec.maxPayload).toOption.map Elr2Frame.toServer =
      (codec.decodeMessage message).toOption := by
  simp only [Elr2Codec.decodeWithLimit, FrameCodec.decodeMessage, bind, Except.bind, pure,
    headerLength_eq]
  by_cases short : message.length < headerLen
  · have refused : validateHeader message codec.maxPayload =
        .error ⟨"incomplete Elura frame"⟩ := by
      simp only [validateHeader, validateLimit_ok, bind, Except.bind, headerLength_eq,
        if_pos short, throw, throwThe, MonadExceptOf.throw]
    simp only [refused, if_pos short]
    rfl
  · simp only [if_neg short]
    rcases header_agrees codec (Nat.not_lt.mp short) with
      ⟨kind, isKind, valid, header⟩ | ⟨⟨error, refused⟩, ⟨other, alsoRefused⟩⟩
    · have length : (headerOf kind message).payloadLen = field message 24 28 := rfl
      simp only [valid, header, isKind, frame_headerOf, length]
      by_cases whole : message.length = headerLen + field message 24 28
      · rw [if_neg (not_not.mpr whole), if_neg (not_not.mpr whole)]
        rcases validate_cases codec (frameOf kind message) .invalidData with
          ⟨own, server⟩ | ⟨⟨error, own⟩, ⟨other, server⟩⟩
        · rw [own, server]
          rfl
        · rw [own, server]
          rfl
      · rw [if_pos whole, if_pos whole]
        rfl
    · simp only [refused, alsoRefused]
      rfl

theorem decodeMessage_take {source : List UInt8} {header : FrameHeader}
    (accepted : codec.decodeHeader (source.take headerLen) = .ok header)
    (whole : headerLen + header.payloadLen ≤ source.length) :
    codec.decodeMessage (source.take (headerLen + header.payloadLen)) =
      (codec.checked .invalidData
        (header.frame ((source.drop headerLen).take header.payloadLen))).map
        (fun _ => header.frame ((source.drop headerLen).take header.payloadLen)) := by
  have length : (source.take (headerLen + header.payloadLen)).length =
      headerLen + header.payloadLen := length_take_of_le whole
  have front : (source.take (headerLen + header.payloadLen)).take headerLen =
      source.take headerLen := by
    rw [take_take, Nat.min_eq_left (Nat.le_add_right _ _)]
  have payload : (source.take (headerLen + header.payloadLen)).drop headerLen =
      (source.drop headerLen).take header.payloadLen := by
    rw [drop_take, Nat.add_sub_cancel_left]
  simp only [FrameCodec.decodeMessage, bind, Except.bind, pure, front, payload, accepted, length]
  rw [if_neg (Nat.not_lt.mpr (Nat.le_add_right _ _))]
  simp only [ne_eq]
  cases codec.checked .invalidData
      (header.frame ((source.drop headerLen).take header.payloadLen)) with
  | error | ok => rfl

theorem call_decode (source : List UInt8) :
    (Elr2Codec.decode codec.maxPayload).call source =
      if source.length < headerLen then (.ok none, source)
      else
        match validateHeader (source.take headerLen) codec.maxPayload with
        | .error error => (.error { kind := .invalidData, error }, source)
        | .ok _ =>
          if source.length < headerLen + field source 24 28 then (.ok none, source)
          else
            ((protocolIoError (Elr2Codec.decodeWithLimit
              (source.take (headerLen + field source 24 28)) codec.maxPayload)).map some,
              source.drop (headerLen + field source 24 28)) := by
  simp only [Elr2Codec.decode, call_bind, call_get, call_ite]
  simp only [headerLength_eq]
  cases validateHeader (source.take headerLen) codec.maxPayload with
  | error => rfl
  | ok =>
    simp only [protocolIoError]
    cases Elr2Codec.decodeWithLimit (source.take (headerLen + field source 24 28))
        codec.maxPayload with
    | error | ok => rfl

theorem stream_decode_agrees (source : List UInt8) :
    ((Elr2Codec.decode codec.maxPayload).call source).1.toOption.map
        (Option.map Elr2Frame.toServer) = (codec.decode.call source).1.toOption ∧
      ((Elr2Codec.decode codec.maxPayload).call source).2 = (codec.decode.call source).2 := by
  rw [call_decode, FrameCodec.call_decode]
  by_cases short : source.length < headerLen
  · simp only [if_pos short]
    exact ⟨rfl, trivial⟩
  · simp only [if_neg short]
    have long : headerLen ≤ (source.take headerLen).length := by
      rw [length_take]
      omega
    have again : (source.take headerLen).take headerLen = source.take headerLen := by
      rw [take_take, Nat.min_self]
    have length : field (source.take headerLen) 24 28 = field source 24 28 :=
      field_take (by decide)
    have agree := header_agrees codec long
    rw [again] at agree
    rcases agree with ⟨kind, isKind, valid, header⟩ | ⟨⟨error, refused⟩, ⟨other, alsoRefused⟩⟩
    · have payloadLen : (headerOf kind (source.take headerLen)).payloadLen =
          field source 24 28 := length
      simp only [valid, header]
      by_cases waiting : source.length < headerLen + field source 24 28
      · rw [payloadLen, if_pos waiting, if_pos waiting]
        exact ⟨rfl, rfl⟩
      · have message := decode_agrees codec (source.take (headerLen + field source 24 28))
        have server := decodeMessage_take codec header (by omega)
        rw [payloadLen] at server
        rw [server] at message
        rw [payloadLen, if_neg waiting, if_neg waiting]
        refine ⟨?_, drop_drop.symm⟩
        revert message
        cases Elr2Codec.decodeWithLimit (source.take (headerLen + field source 24 28))
            codec.maxPayload <;>
          cases codec.checked .invalidData ((headerOf kind (source.take headerLen)).frame
            ((source.drop headerLen).take (field source 24 28))) <;>
          intro message
        · rfl
        · cases message
        · cases message
        · exact congrArg some message
    · simp only [refused, alsoRefused]
      exact ⟨rfl, trivial⟩

end Agreement

/-- For every payload limit the two codecs accept the same messages and the same frames, with
the same fields and bytes, and their stream decoders make the same progress on equal buffers. -/
theorem codecs_agree (codec : FrameCodec) :
    Function.Bijective Elr2Frame.toServer ∧
    (∀ message, (Elr2Codec.decodeWithLimit message codec.maxPayload).toOption.map
      Elr2Frame.toServer = (codec.decodeMessage message).toOption) ∧
    (∀ frame, (Elr2Codec.encodeWithLimit frame codec.maxPayload).toOption =
      ((codec.encode frame.toServer).call []).1.toOption.map
        (fun _ => ((codec.encode frame.toServer).call []).2)) ∧
    (∀ frame destination, ((Elr2Codec.encode codec.maxPayload frame).call destination).1.toOption =
          ((codec.encode frame.toServer).call destination).1.toOption ∧
        ((Elr2Codec.encode codec.maxPayload frame).call destination).2 =
          ((codec.encode frame.toServer).call destination).2) ∧
    ∀ source,
      ((Elr2Codec.decode codec.maxPayload).call source).1.toOption.map
          (Option.map Elr2Frame.toServer) = (codec.decode.call source).1.toOption ∧
        ((Elr2Codec.decode codec.maxPayload).call source).2 = (codec.decode.call source).2 := by
  refine ⟨Elr2Frame.toServer_bijective, decode_agrees codec, fun frame => ?_,
    fun frame destination => ?_, stream_decode_agrees codec⟩
  · simp only [FrameCodec.encode]
    simp only [Elr2Codec.encodeWithLimit]
    rcases validate_cases codec frame .invalidInput with
      ⟨own, server⟩ | ⟨⟨error, own⟩, ⟨other, server⟩⟩
    · simp only [own, server]
      rw [writeFrame_eq]
      rfl
    · simp only [own, server]
      rfl
  · simp only [Elr2Codec.encode, FrameCodec.encode, call_bind, call_liftExcept]
    rcases validate_cases codec frame .invalidInput with
      ⟨own, server⟩ | ⟨⟨error, own⟩, ⟨other, server⟩⟩
    · simp only [own, server]
      rw [writeFrame_eq]
      exact ⟨rfl, rfl⟩
    · simp only [own, server, protocolIoError]
      exact ⟨rfl, trivial⟩

end Elura.Sdk
