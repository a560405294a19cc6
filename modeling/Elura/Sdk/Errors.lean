import Elura.Core.ErrorEnvelope
import Elura.Sdk.Protocol

/-!
Error frames at the client. The SDK reads the same JSON object as the server and checks it once
more, with one rule of its own about the delay.
-/

namespace Elura.Sdk

open ErrorEnvelope

def validateErrorEnvelope (envelope : ErrorEnvelope) : Except Elr2ProtocolError Unit :=
  let validCode := envelope.code ≠ "" ∧ envelope.code.utf8ByteSize ≤ 64 ∧
    envelope.code.toList.all isCodeLetter
  if ¬validCode ∨ 1024 < envelope.message.utf8ByteSize ∨ envelope.retryAfterMs = some 0 then
    .error ⟨"invalid error envelope fields"⟩
  else .ok ()

/-- `EluraProtocol::decode_error`. `parse` is the JSON parser and `jsonError` its error text. -/
def decodeError (parse : List UInt8 → Option ErrorEnvelope) (jsonError : List UInt8 → String)
    (frame : Elr2Frame) : Except Elr2ProtocolError ErrorEnvelope := do
  if frame.kind ≠ .error then
    throw ⟨"expected an error frame"⟩
  match parse frame.payload with
  | none => throw ⟨"invalid Elura JSON payload: " ++ jsonError frame.payload⟩
  | some envelope =>
    validateErrorEnvelope envelope
    return envelope

theorem validateErrorEnvelope_ok {envelope : ErrorEnvelope} (accepted : envelope.Accepted) :
    validateErrorEnvelope envelope = .ok () := by
  unfold validateErrorEnvelope
  rw [if_neg]
  rintro (code | long | delay)
  · exact code ⟨accepted.code.filled, accepted.code.short, accepted.code.letters⟩
  · exact absurd accepted.message (Nat.not_le.mpr long)
  · exact accepted.delay delay

end Elura.Sdk
