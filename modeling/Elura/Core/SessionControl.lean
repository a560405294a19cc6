import Elura.Basis.Protobuf
import Elura.Core.Protocol

/-!
Session control: the event one gateway sends the others about the sessions of a
player, and the message a session is given before it is disconnected.
-/

namespace Elura

open List

def routeSessionControl : UInt32 := 4

inductive SessionControlAction
  | unspecified
  | kick
  | accountVersionChanged
  | duplicateLogin
  | forceLogout
  | serverDraining
  deriving DecidableEq, Repr

def SessionControlAction.number : SessionControlAction → UInt8
  | .unspecified => 0
  | .kick => 1
  | .accountVersionChanged => 2
  | .duplicateLogin => 3
  | .forceLogout => 4
  | .serverDraining => 5

def SessionControlAction.tryFrom : Int → Option SessionControlAction
  | 0 => some .unspecified
  | 1 => some .kick
  | 2 => some .accountVersionChanged
  | 3 => some .duplicateLogin
  | 4 => some .forceLogout
  | 5 => some .serverDraining
  | _ => none

def SessionControlAction.numbers : List Nat := [0, 1, 2, 3, 4, 5]

theorem SessionControlAction.tryFrom_number (action : SessionControlAction) :
    SessionControlAction.tryFrom action.number.toNat = some action := by
  cases action <;> rfl

structure SessionControlWire where
  action : Int
  reason : String
  deriving DecidableEq, Repr

namespace SessionControlWire

/-- A field equal to its default is not written. -/
def fields (default : Int) (wire : SessionControlWire) : List Protobuf.Field :=
  (if wire.action = default then []
    else [{ tag := 1, value := .number (wire.action % 2 ^ 64).toNat }]) ++
  (if wire.reason = "" then []
    else [{ tag := 2, value := .bytes wire.reason.toUTF8.data.toList }])

def encode (default : Int) (wire : SessionControlWire) : List UInt8 :=
  Protobuf.encode (wire.fields default)

def mergeField (wire : SessionControlWire) (field : Protobuf.Field) :
    Option SessionControlWire :=
  match field.tag with
  | 1 =>
    match field.value with
    | .number value => some { wire with action := asI32 value }
    | _ => none
  | 2 =>
    match field.value with
    | .bytes content =>
      (String.fromUTF8? ⟨content.toArray⟩).map (fun reason => { wire with reason })
    | _ => none
  | _ => some wire

def decode (default : Int) (payload : List UInt8) : Option SessionControlWire :=
  (Protobuf.parse payload).bind (fun fields =>
    fields.foldlM mergeField { action := default, reason := "" })

theorem mergeField_action {value : Nat} (wire : SessionControlWire) (small : value < 2 ^ 31) :
    wire.mergeField { tag := 1, value := .number value } = some { wire with action := value } := by
  have same : asI32 value = value := asI32_of_le (show value ≤ 2 ^ 31 - 1 by omega)
  simp only [mergeField, same]

theorem mergeField_reason (wire : SessionControlWire) (reason : String) :
    wire.mergeField { tag := 2, value := .bytes reason.toUTF8.data.toList } =
      some { wire with reason } := by
  have back : String.fromUTF8? ⟨reason.toUTF8.data.toList.toArray⟩ = some reason := by
    rw [Array.toArray_toList]
    exact dif_pos reason.isValidUTF8
  simp only [mergeField, back, Option.map_some]

/-- A reader sees what was written, with its own default where the writer left the action out. -/
theorem decode_encode (own other : Int) {action : Nat} {reason : String}
    (small : action < 2 ^ 31) (short : reason.utf8ByteSize < 2 ^ 64) :
    decode own (encode other { action, reason }) =
      some { action := if (action : Int) = other then own else action, reason } := by
  have number : ((action : Int) % 2 ^ 64).toNat = action := by omega
  have writable : ∀ field ∈ fields other { action, reason }, field.Writable := by
    intro field listed
    simp only [fields, mem_append] at listed
    rcases listed with listed | listed
    · split at listed
      · cases listed
      · cases mem_singleton.mp listed
        exact ⟨Nat.one_pos, show 1 < 2 ^ 29 by decide, by simp only [number]; omega⟩
    · split at listed
      · cases listed
      · cases mem_singleton.mp listed
        exact ⟨Nat.two_pos, show 2 < 2 ^ 29 by decide, short⟩
  rw [decode, encode, Protobuf.parse_encode writable, Option.bind_some, fields, number]
  by_cases omitted : (action : Int) = other <;> by_cases empty : reason = ""
  · simp only [omitted, empty]
    rfl
  · simp only [omitted, empty, if_true, if_false, nil_append, foldlM_cons,
      mergeField_reason]
    rfl
  · simp only [omitted, empty, if_true, if_false, append_nil, foldlM_cons,
      mergeField_action _ small]
    rfl
  · simp only [omitted, empty, if_false, cons_append, nil_append, foldlM_cons,
      mergeField_action _ small, mergeField_reason]
    rfl

theorem foldlM_default {fields : List Protobuf.Field} {one other : SessionControlWire}
    (same : one.reason = other.reason) (named : ∃ field ∈ fields, field.tag = 1) :
    fields.foldlM mergeField one = fields.foldlM mergeField other := by
  induction fields generalizing one other with
  | nil =>
    obtain ⟨field, listed, _⟩ := named
    cases listed
  | cons field fields ih =>
    rw [foldlM_cons, foldlM_cons]
    by_cases tag : field.tag = 1
    · have merged : one.mergeField field = other.mergeField field := by
        simp only [mergeField, tag, same]
      rw [merged]
    · obtain ⟨later, listed, isAction⟩ := named
      have remaining : ∃ field ∈ fields, field.tag = 1 := by
        rcases mem_cons.mp listed with rfl | listed
        · exact absurd isAction tag
        · exact ⟨later, listed, isAction⟩
      by_cases text : field.tag = 2
      · simp only [mergeField, text]
        cases field.value with
        | bytes content =>
          simp only
          generalize String.fromUTF8? ⟨content.toArray⟩ = decoded
          cases decoded with
          | none => rfl
          | some reason =>
            exact @ih { one with reason } { other with reason } rfl remaining
        | number | fixed | group => rfl
      · have skipped : ∀ wire : SessionControlWire, wire.mergeField field = some wire := by
          intro wire
          unfold mergeField
          split
          · contradiction
          · contradiction
          · rfl
        rw [skipped, skipped]
        exact ih same remaining

end SessionControlWire

structure SessionControl where
  action : SessionControlAction
  reason : String
  deriving DecidableEq, Repr

namespace SessionControl

def validate (control : SessionControl) : Except Error Unit :=
  if control.action = .unspecified then
    .error (.invalidConfig "Session control action is unspecified")
  else if 256 < control.reason.utf8ByteSize then
    .error (.invalidConfig "Session control reason exceeds 256 bytes")
  else .ok ()

def new (action : SessionControlAction) (reason : String) : Except Error SessionControl := do
  let control : SessionControl := { action, reason }
  control.validate
  return control

/-- A Protobuf length; a valid reason needs at most two bytes for it. -/
def encodeLength (length : Nat) : List UInt8 :=
  if length < 128 then [.ofNat length] else [.ofNat (length % 128 + 128), .ofNat (length / 128)]

/-- The Protobuf message: the action under tag 1, and the reason under tag 2 unless
it is empty. -/
def encodeFramePayload (control : SessionControl) : Except Error (List UInt8) := do
  control.validate
  let text := control.reason.toUTF8.data.toList
  return [0x08, control.action.number] ++
    (if text.isEmpty then [] else 0x12 :: encodeLength text.length ++ text)

example : encodeFramePayload ⟨.accountVersionChanged, "credentials rotated"⟩ =
    .ok ([0x08, 0x02, 0x12, 0x13] ++ "credentials rotated".toUTF8.data.toList) := by decide

theorem validate_ok_iff {control : SessionControl} :
    control.validate = .ok () ↔
      control.action ≠ .unspecified ∧ control.reason.utf8ByteSize ≤ 256 := by
  unfold validate
  by_cases unspecified : control.action = .unspecified
  · simp [unspecified]
  · by_cases long : 256 < control.reason.utf8ByteSize
    · simp [unspecified]
    · simp [long, Nat.not_lt.mp long]

theorem encodeLength_eq {length : Nat} (short : length ≤ 256) :
    encodeLength length = Protobuf.encodeVarint length := by
  rw [encodeLength, Protobuf.encodeVarint, Protobuf.encodeVarintFrom]
  by_cases small : length < 128
  · rw [if_pos small, if_pos small]
  · rw [if_neg small, if_neg small, Protobuf.encodeVarintFrom, if_pos (by omega)]

theorem encodeFramePayload_eq {control : SessionControl} (valid : control.validate = .ok ()) :
    control.encodeFramePayload = .ok (SessionControlWire.encode 0
      { action := control.action.number.toNat, reason := control.reason }) := by
  obtain ⟨specified, short⟩ := validate_ok_iff.mp valid
  obtain ⟨action, reason⟩ := control
  have text : reason.toUTF8.data.toList.length ≤ 256 := short
  have empty : reason.toUTF8.data.toList.isEmpty = true ↔ reason = "" := by
    rw [List.isEmpty_iff, Array.toList_eq_nil_iff]
    constructor
    · intro none
      exact String.toByteArray_inj.mp (ByteArray.ext none)
    · rintro rfl
      rfl
  have wire : (action.number.toNat : Int) ≠ 0 ∧
      Protobuf.encodeVarint ((action.number.toNat : Int) % 2 ^ 64).toNat = [action.number] := by
    cases action <;> first | contradiction | decide
  have keys : Protobuf.encodeKey 1 .varint = [0x08] ∧
      Protobuf.encodeKey 2 .lengthDelimited = [0x12] := by decide
  simp only [encodeFramePayload, valid, SessionControlWire.encode, SessionControlWire.fields,
    Protobuf.encode, if_neg wire.1]
  by_cases silent : reason = ""
  · rw [if_pos (empty.mpr silent), if_pos silent]
    simp only [List.append_nil, List.flatMap_cons, Protobuf.Field.encode, wire.2]
    rfl
  · rw [if_neg (fun none => silent (empty.mp none)), if_neg silent]
    simp only [List.flatMap_append, List.flatMap_cons, List.flatMap_nil, List.append_nil,
      Protobuf.Field.encode, wire.2, encodeLength_eq text]
    rfl

def decodeFramePayload (payload : List UInt8) : Except Error SessionControl :=
  let invalid := .error (.invalidFrame "invalid Session control Protobuf payload")
  match SessionControlWire.decode (Protobuf.enumDefault SessionControlAction.numbers) payload with
  | none => invalid
  | some wire =>
    match SessionControlAction.tryFrom wire.action with
    | none => invalid
    | some action =>
      match validate { action, reason := wire.reason } with
      | .error _ => invalid
      | .ok () => .ok { action, reason := wire.reason }

theorem decodeFramePayload_ok {control : SessionControl} {payload : List UInt8}
    (valid : control.validate = .ok ())
    (decoded : SessionControlWire.decode 0 payload =
      some { action := control.action.number.toNat, reason := control.reason }) :
    decodeFramePayload payload = .ok control := by
  have default : ((Protobuf.enumDefault SessionControlAction.numbers : Nat) : Int) = 0 := rfl
  simp only [decodeFramePayload, default, decoded, SessionControlAction.tryFrom_number, valid]

end SessionControl

inductive SessionControlKind
  | login
  | forceLogout
  | versionChanged
  deriving DecidableEq, Repr

structure SessionControlEvent where
  kind : SessionControlKind
  regionId : UInt32
  realmId : UInt32
  userId : Int
  generation : UInt64
  sessionId : Option Uuid
  keepSessionId : Option Uuid
  reason : String
  deriving DecidableEq, Repr

namespace SessionControlEvent

def validate (event : SessionControlEvent) : Except Error Unit :=
  if event.regionId = 0 ∨ event.realmId = 0 ∨ event.userId ≤ 0 ∨
      256 < event.reason.utf8ByteSize ∨
      event.kind = .versionChanged ∧ event.generation = 0 then
    .error (.invalidConfig "invalid Session control event")
  else .ok ()

def playerKey (event : SessionControlEvent) : PlayerKey where
  regionId := event.regionId
  realmId := event.realmId
  userId := event.userId

theorem reason_of_validate {event : SessionControlEvent} (valid : event.validate = .ok ()) :
    event.reason.utf8ByteSize ≤ 256 := by
  unfold validate at valid
  split_ifs at valid
  omega

end SessionControlEvent

end Elura
