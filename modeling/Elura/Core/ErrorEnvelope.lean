import Elura.Basis.Text
import Elura.Core.Values

/-!
Errors on their way to another process: what of an error is told, how an application's own
codes are made presentable, and what comes back when the receiver turns the envelope into an
error of its own.
-/

namespace Elura

open List

def isAsciiUppercase (byte : UInt8) : Bool := 65 ≤ byte && byte ≤ 90

def isAsciiLowercase (byte : UInt8) : Bool := 97 ≤ byte && byte ≤ 122

def isAsciiDigit (byte : UInt8) : Bool := 48 ≤ byte && byte ≤ 57

def isAsciiAlphanumeric (byte : UInt8) : Bool :=
  isAsciiUppercase byte || isAsciiLowercase byte || isAsciiDigit byte

def toAsciiUppercase (byte : UInt8) : UInt8 := if isAsciiLowercase byte then byte - 32 else byte

def publicLetter (byte : UInt8) : Char :=
  if isAsciiAlphanumeric byte then Char.ofNat (toAsciiUppercase byte).toNat else '_'

def publicCode (value : String) : String :=
  let code := String.ofList ((value.toUTF8.data.toList.take 64).map publicLetter)
  if code = "" then "BUSINESS_ERROR" else code

namespace ErrorEnvelope

def new (code message : String) (retryable : Bool) : ErrorEnvelope where
  code := code
  message := message
  retryable := retryable
  retryAfterMs := none

def withRetryAfter (envelope : ErrorEnvelope) (retryAfterMs : Nat) : ErrorEnvelope :=
  { envelope with retryAfterMs := if 0 < retryAfterMs then some retryAfterMs else none }

def toBytes (print : ErrorEnvelope → Option (List UInt8)) (envelope : ErrorEnvelope) :
    List UInt8 :=
  (print envelope).getD
    ("\x7b\"code\":\"INTERNAL\",\"message\":\"internal error\",\"retryable\":false\x7d").toUTF8.data.toList

def ofError : Error → ErrorEnvelope
  | .invalidConfig _ => new "INVALID_CONFIG" "invalid configuration" false
  | .invalidFrame _ => new "INVALID_REQUEST" "invalid request" false
  | .serialization _ => new "INVALID_REQUEST" "invalid request" false
  | .authentication => new "UNAUTHENTICATED" "authentication failed" false
  | .ticketExpired => new "UNAUTHENTICATED" "authentication failed" false
  | .ticketReplayed => new "UNAUTHENTICATED" "authentication failed" false
  | .duplicateSession => new "DUPLICATE_SESSION" "duplicate session" false
  | .sessionRevoked => new "SESSION_REVOKED" "account session was revoked" false
  | .admissionDenied code reason retryAfterMs =>
    (new (publicCode code) reason true).withRetryAfter retryAfterMs
  | .business code message retryable => new (publicCode code) message retryable
  | .routeNotFound _ => new "ROUTE_NOT_FOUND" "route is not registered" false
  | .rateLimited => new "RATE_LIMITED" "request rate exceeded" true
  | .queueFull => new "QUEUE_FULL" "service queue is full" true
  | .unavailable => new "UNAVAILABLE" "service is unavailable" true
  | .io _ => new "UNAVAILABLE" "service is unavailable" true
  | .timeout => new "TIMEOUT" "operation timed out" true
  | .outboxLeaseLost => new "INTERNAL" "internal error" false
  | .outboxNotFound => new "INTERNAL" "internal error" false
  | .duplicateEvent => new "INTERNAL" "internal error" false
  | .alreadyProcessed => new "INTERNAL" "internal error" false
  | .duplicateRoute _ => new "INTERNAL" "internal error" false
  | .internal _ => new "INTERNAL" "internal error" false

end ErrorEnvelope

section PublicCodes

def isCodeLetter (letter : Char) : Bool :=
  'A' ≤ letter && letter ≤ 'Z' || letter.isDigit || letter == '_'

theorem isCodeLetter_publicLetter (byte : UInt8) : isCodeLetter (publicLetter byte) = true := by
  have all : ∀ value < 256, isCodeLetter (publicLetter (UInt8.ofNat value)) = true := by
    decide +kernel
  have this := all byte.toNat byte.toNat_lt
  rwa [UInt8.ofNat_toNat] at this

theorem publicLetter_codeLetter {letter : Char} (accepted : isCodeLetter letter = true) :
    letter.toNat ≤ 127 ∧ publicLetter (UInt8.ofNat letter.toNat) = letter := by
  have ascii : letter.toNat < 128 := by
    simp only [isCodeLetter, Bool.or_eq_true, Bool.and_eq_true, decide_eq_true_eq, beq_iff_eq,
      Char.isDigit] at accepted
    rcases accepted with (⟨_, upper⟩ | ⟨_, upper⟩) | rfl
    · exact Nat.lt_of_le_of_lt (UInt32.le_iff_toNat_le.mp upper) (by decide)
    · exact Nat.lt_of_le_of_lt (UInt32.le_iff_toNat_le.mp upper) (by decide)
    · decide
  have all : ∀ value < 128, isCodeLetter (Char.ofNat value) = true →
      publicLetter (UInt8.ofNat value) = Char.ofNat value := by decide +kernel
  refine ⟨by omega, ?_⟩
  have this := all _ ascii
  rw [Char.ofNat_toNat] at this
  exact this accepted

structure IsPublicCode (code : String) : Prop where
  filled : code ≠ ""
  short : code.utf8ByteSize ≤ 64
  letters : code.toList.all isCodeLetter = true

theorem isPublicCode_ofList {letters : List Char} (filled : letters ≠ []) (short : letters.length ≤ 64)
    (accepted : ∀ letter ∈ letters, isCodeLetter letter = true) :
    IsPublicCode (String.ofList letters) := by
  refine ⟨?_, ?_, ?_⟩
  · intro empty
    exact filled (String.ofList_eq_empty_iff.mp empty)
  · have bytes := congrArg length (utf8_ascii (fun letter listed =>
      (publicLetter_codeLetter (accepted letter listed)).1))
    rw [asciiBytes, length_map] at bytes
    change (String.ofList letters).toUTF8.data.toList.length ≤ 64
    omega
  · rw [String.toList_ofList]
    exact all_eq_true.mpr accepted

theorem isPublicCode_publicCode (value : String) : IsPublicCode (publicCode value) := by
  unfold publicCode
  by_cases empty : String.ofList ((value.toUTF8.data.toList.take 64).map publicLetter) = ""
  · rw [if_pos empty]
    exact ⟨by decide, by decide, by decide⟩
  · rw [if_neg empty]
    apply isPublicCode_ofList
    · intro none
      exact empty (String.ofList_eq_empty_iff.mpr none)
    · rw [length_map]
      exact length_take_le _ _
    · intro letter listed
      obtain ⟨byte, _, rfl⟩ := mem_map.mp listed
      exact isCodeLetter_publicLetter byte

theorem publicCode_of_isPublicCode {code : String} (accepted : IsPublicCode code) :
    publicCode code = code := by
  obtain ⟨filled, short, letters⟩ := accepted
  rw [all_eq_true] at letters
  have bytes := utf8_ascii (fun letter listed =>
    (publicLetter_codeLetter (letters letter listed)).1)
  rw [String.ofList_toList, asciiBytes] at bytes
  have all : code.toUTF8.data.toList.take 64 = code.toUTF8.data.toList :=
    take_of_length_le short
  have back : (code.toList.map (fun letter => UInt8.ofNat letter.toNat)).map publicLetter =
      code.toList := by
    rw [map_map]
    apply (map_congr_left _).trans (map_id _)
    intro letter listed
    exact (publicLetter_codeLetter (letters letter listed)).2
  unfold publicCode
  rw [all, bytes, back, String.ofList_toList, if_neg filled]

end PublicCodes

namespace ErrorEnvelope

structure Accepted (envelope : ErrorEnvelope) : Prop where
  code : IsPublicCode envelope.code
  message : envelope.message.utf8ByteSize ≤ 1024
  delay : envelope.retryAfterMs ≠ some 0

theorem fromSlice_ok {parse : List UInt8 → Option ErrorEnvelope} {input : List UInt8}
    {envelope : ErrorEnvelope} (parsed : parse input = some envelope)
    (accepted : envelope.Accepted) : fromSlice parse input = .ok envelope := by
  have letters := accepted.code.letters
  simp only [fromSlice, parsed]
  rw [if_neg]
  rintro (empty | long | long | other)
  · exact accepted.code.filled empty
  · exact absurd accepted.code.short (Nat.not_le.mpr long)
  · exact absurd accepted.message (Nat.not_le.mpr long)
  · exact other letters

def frameworkCodes : List String :=
  ["UNAUTHENTICATED", "DUPLICATE_SESSION", "SESSION_REVOKED", "RATE_LIMITED", "QUEUE_FULL",
    "UNAVAILABLE", "TIMEOUT", "INTERNAL"]

end ErrorEnvelope

/-- An application's error that can be told as it is: its code is not one of the framework's,
its text fits an envelope, and it asks for no delay. -/
def Error.Tellable : Error → Prop
  | .admissionDenied code reason retryAfterMs =>
    publicCode code ∉ ErrorEnvelope.frameworkCodes ∧ reason.utf8ByteSize ≤ 1024 ∧
      retryAfterMs = 0
  | .business code message _ =>
    publicCode code ∉ ErrorEnvelope.frameworkCodes ∧ message.utf8ByteSize ≤ 1024
  | _ => True

namespace ErrorEnvelope

theorem accepted_new {code message : String} {retryable : Bool} (isPublic : IsPublicCode code)
    (short : message.utf8ByteSize ≤ 1024) : (new code message retryable).Accepted :=
  ⟨isPublic, short, by simp [new]⟩

theorem accepted_ofError {error : Error} (tellable : error.Tellable) :
    (ofError error).Accepted := by
  cases error with
  | admissionDenied code =>
    refine ⟨isPublicCode_publicCode code, tellable.2.1, ?_⟩
    simp only [ofError, withRetryAfter, tellable.2.2]
    simp
  | business code =>
    exact accepted_new (isPublicCode_publicCode code) tellable.2
  | _ => exact accepted_new ⟨by decide, by decide, by decide⟩ (by decide)

theorem ofError_business {code message : String} {retryable : Bool}
    (isPublic : IsPublicCode code) (own : code ∉ frameworkCodes) :
    ofError (new code message retryable).intoError = new code message retryable := by
  unfold intoError
  split
  case h_9 => simp only [new, ofError, publicCode_of_isPublicCode isPublic]
  all_goals
    rename_i isFramework
    exact absurd ((congrArg (· ∈ frameworkCodes) isFramework).mpr (by decide)) own

theorem relay_idempotent {error : Error} (tellable : error.Tellable) :
    ofError (ofError error).intoError = ofError error := by
  cases error with
  | admissionDenied code reason retryAfterMs =>
    have prompt : ofError (.admissionDenied code reason retryAfterMs) =
        new (publicCode code) reason true := by
      simp only [tellable.2.2]
      rfl
    rw [prompt]
    exact ofError_business (isPublicCode_publicCode code) tellable.1
  | business code =>
    exact ofError_business (isPublicCode_publicCode code) tellable.1
  | _ => rfl

end ErrorEnvelope

end Elura
