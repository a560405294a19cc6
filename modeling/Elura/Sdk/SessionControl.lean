import Elura.Core.SessionControl
import Elura.Sdk.Protocol

/-!
Session control messages in the client SDK. Its enumeration of actions has no zero, so the
first action takes the place of an absent one: the SDK does not write it, and reads it where
the server reads that no action was given.
-/

namespace Elura.Sdk

inductive SessionControlAction
  | kick
  | accountVersionChanged
  | duplicateLogin
  | forceLogout
  | serverDraining
  deriving DecidableEq, Repr

def SessionControlAction.number : SessionControlAction → Nat
  | .kick => 1
  | .accountVersionChanged => 2
  | .duplicateLogin => 3
  | .forceLogout => 4
  | .serverDraining => 5

def SessionControlAction.tryFrom : Int → Option SessionControlAction
  | 1 => some .kick
  | 2 => some .accountVersionChanged
  | 3 => some .duplicateLogin
  | 4 => some .forceLogout
  | 5 => some .serverDraining
  | _ => none

def SessionControlAction.numbers : List Nat := [1, 2, 3, 4, 5]

structure SessionControl where
  action : SessionControlAction
  reason : String
  deriving DecidableEq, Repr

namespace SessionControlCodec

def encode (control : SessionControl) : Except Elr2ProtocolError (List UInt8) :=
  if 256 < control.reason.utf8ByteSize then
    .error ⟨"Session Control reason exceeds 256 bytes"⟩
  else
    .ok (SessionControlWire.encode (Protobuf.enumDefault SessionControlAction.numbers)
      { action := control.action.number, reason := control.reason })

/-- The text of a Protobuf error comes from the library. -/
def decode (protobufError : List UInt8 → String) (payload : List UInt8) :
    Except Elr2ProtocolError SessionControl :=
  match SessionControlWire.decode (Protobuf.enumDefault SessionControlAction.numbers) payload with
  | none => .error ⟨"invalid Session Control protobuf: " ++ protobufError payload⟩
  | some wire =>
    match SessionControlAction.tryFrom wire.action with
    | none => .error ⟨"unknown Session Control action"⟩
    | some action =>
      if 256 < wire.reason.utf8ByteSize then
        .error ⟨"Session Control reason exceeds 256 bytes"⟩
      else .ok { action, reason := wire.reason }

end SessionControlCodec

variable (action : SessionControlAction)

def SessionControlAction.toServer : SessionControlAction → Elura.SessionControlAction
  | .kick => .kick
  | .accountVersionChanged => .accountVersionChanged
  | .duplicateLogin => .duplicateLogin
  | .forceLogout => .forceLogout
  | .serverDraining => .serverDraining

def SessionControl.toServer (control : SessionControl) : Elura.SessionControl where
  action := control.action.toServer
  reason := control.reason

theorem SessionControlAction.toServer_number :
    action.toServer ≠ .unspecified ∧ action.toServer.number.toNat = action.number := by
  cases action <;> decide

theorem SessionControlAction.number_lt :
    action.number < 2 ^ 31 := by
  cases action <;> decide

theorem SessionControlAction.tryFrom_number :
    SessionControlAction.tryFrom action.number = some action := by
  cases action <;> rfl

theorem SessionControlAction.exists_toServer {action : Elura.SessionControlAction}
    (specified : action ≠ .unspecified) :
    ∃ own : SessionControlAction, own.toServer = action := by
  cases action with
  | unspecified => exact absurd rfl specified
  | kick => exact ⟨.kick, rfl⟩
  | accountVersionChanged => exact ⟨.accountVersionChanged, rfl⟩
  | duplicateLogin => exact ⟨.duplicateLogin, rfl⟩
  | forceLogout => exact ⟨.forceLogout, rfl⟩
  | serverDraining => exact ⟨.serverDraining, rfl⟩

theorem SessionControlAction.tryFrom_toServer (number : Int) :
    (SessionControlAction.tryFrom number).map SessionControlAction.toServer =
      (Elura.SessionControlAction.tryFrom number).filter (· ≠ .unspecified) := by
  unfold SessionControlAction.tryFrom Elura.SessionControlAction.tryFrom
  split
  · rfl
  · rfl
  · rfl
  · rfl
  · rfl
  · split <;> first | contradiction | rfl

/-- A payload that can be read at all says which action it is about. -/
def NamesAction (payload : List UInt8) : Prop :=
  ∀ fields, Protobuf.parse payload = some fields → ∃ field ∈ fields, field.tag = 1

theorem decode_toServer (protobufError : List UInt8 → String) {payload : List UInt8}
    (same : SessionControlWire.decode (Protobuf.enumDefault SessionControlAction.numbers) payload =
      SessionControlWire.decode (Protobuf.enumDefault Elura.SessionControlAction.numbers)
        payload) :
    (SessionControlCodec.decode protobufError payload).toOption.map SessionControl.toServer =
      (Elura.SessionControl.decodeFramePayload payload).toOption := by
  rw [SessionControlCodec.decode, Elura.SessionControl.decodeFramePayload, same]
  cases SessionControlWire.decode (Protobuf.enumDefault Elura.SessionControlAction.numbers)
      payload with
  | none => rfl
  | some wire =>
    have known := SessionControlAction.tryFrom_toServer wire.action
    cases own : SessionControlAction.tryFrom wire.action with
    | none =>
      rw [own] at known
      cases server : Elura.SessionControlAction.tryFrom wire.action with
      | none =>
        simp only [own, server]
        rfl
      | some action =>
        have unspecified : action = .unspecified := by
          simpa [server, Option.filter] using known
        simp only [own, server, unspecified]
        rfl
    | some action =>
      rw [own] at known
      obtain ⟨server, specified⟩ := Option.filter_eq_some_iff.mp known.symm
      simp only [own, server]
      have valid := @Elura.SessionControl.validate_ok_iff
        { action := action.toServer, reason := wire.reason }
      by_cases long : 256 < wire.reason.utf8ByteSize
      · rw [if_pos long]
        cases checked : Elura.SessionControl.validate
            { action := action.toServer, reason := wire.reason } with
        | error error => rfl
        | ok _ => exact absurd (valid.mp checked).2 (Nat.not_le.mpr long)
      · rw [if_neg long, valid.mpr ⟨action.toServer_number.1, Nat.not_lt.mp long⟩]
        rfl

end Elura.Sdk
