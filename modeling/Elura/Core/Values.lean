import Mathlib

/-!
Values shared by the modules of `elura_core`: errors, player keys and state
digests. The texts of an error are part of its value; an `io` or serialization
error from outside keeps only its kind or text.
-/

namespace Elura

inductive IoErrorKind
  | unexpectedEof
  | invalidData
  | invalidInput
  | other
  deriving DecidableEq, Repr

inductive Error
  | invalidConfig (message : String)
  | invalidFrame (message : String)
  | authentication
  | duplicateSession
  | sessionRevoked
  | admissionDenied (code reason : String) (retryAfterMs : Nat)
  | outboxLeaseLost
  | outboxNotFound
  | duplicateEvent
  | alreadyProcessed
  | business (code message : String) (retryable : Bool)
  | ticketExpired
  | ticketReplayed
  | routeNotFound (route : UInt32)
  | duplicateRoute (route : UInt32)
  | rateLimited
  | queueFull
  | unavailable
  | timeout
  | io (kind : IoErrorKind)
  | serialization (message : String)
  | internal (message : String)
  deriving DecidableEq, Repr

/-- The `Display` text. The text of an `io::Error` comes from the system. -/
def Error.display (ioText : IoErrorKind → String) : Error → String
  | .invalidConfig message => "invalid configuration: " ++ message
  | .invalidFrame message => "invalid frame: " ++ message
  | .authentication => "authentication failed"
  | .duplicateSession => "duplicate session"
  | .sessionRevoked => "account version revoked"
  | .admissionDenied code reason retryAfterMs =>
    "admission denied (" ++ code ++ "): " ++ reason ++ "; retry after " ++
      toString retryAfterMs ++ "ms"
  | .outboxLeaseLost => "outbox lease was lost"
  | .outboxNotFound => "outbox event was not found"
  | .duplicateEvent => "outbox event ID conflicts with another event"
  | .alreadyProcessed => "event was already processed"
  | .business code message _ => code ++ ": " ++ message
  | .ticketExpired => "ticket expired"
  | .ticketReplayed => "ticket replayed"
  | .routeNotFound route => "route " ++ toString route ++ " is not registered"
  | .duplicateRoute route => "route " ++ toString route ++ " already exists"
  | .rateLimited => "request rate exceeded"
  | .queueFull => "queue is full"
  | .unavailable => "service is unavailable"
  | .timeout => "operation timed out"
  | .io kind => "I/O error: " ++ ioText kind
  | .serialization message => "serialization error: " ++ message
  | .internal message => "internal error: " ++ message

structure ErrorEnvelope where
  code : String
  message : String
  retryable : Bool
  retryAfterMs : Option Nat
  deriving DecidableEq, Repr

namespace ErrorEnvelope

/-- `parse` is the JSON parser. -/
def fromSlice (parse : List UInt8 → Option ErrorEnvelope) (input : List UInt8) :
    Except Error ErrorEnvelope :=
  match parse input with
  | none => .error (.invalidFrame "invalid error envelope")
  | some envelope =>
    if envelope.code = "" ∨ 64 < envelope.code.utf8ByteSize ∨
        1024 < envelope.message.utf8ByteSize ∨
        ¬envelope.code.toList.all (fun letter =>
          'A' ≤ letter && letter ≤ 'Z' || letter.isDigit || letter == '_') then
      .error (.invalidFrame "invalid error envelope fields")
    else .ok envelope

def intoError (envelope : ErrorEnvelope) : Error :=
  match envelope.code with
  | "UNAUTHENTICATED" => .authentication
  | "DUPLICATE_SESSION" => .duplicateSession
  | "SESSION_REVOKED" => .sessionRevoked
  | "RATE_LIMITED" => .rateLimited
  | "QUEUE_FULL" => .queueFull
  | "UNAVAILABLE" => .unavailable
  | "TIMEOUT" => .timeout
  | "INTERNAL" => .internal "remote service error"
  | _ => .business envelope.code envelope.message envelope.retryable

end ErrorEnvelope

inductive IoErrorSource
  | message (text : String)
  | error (error : Error)
  deriving DecidableEq, Repr

structure IoError where
  kind : IoErrorKind
  source : IoErrorSource
  deriving DecidableEq, Repr

/-- The 128-bit value, ordered as its bytes are. -/
abbrev Uuid := Nat

structure PlayerKey where
  regionId : UInt32
  realmId : UInt32
  userId : Int
  deriving DecidableEq, Repr

def PlayerKey.validate (key : PlayerKey) : Except Error Unit :=
  if key.regionId = 0 ∨ key.realmId = 0 ∨ key.userId ≤ 0 then
    .error (.invalidConfig "invalid player key")
  else .ok ()

structure StateHash where
  bytes : Vector UInt8 32
  deriving DecidableEq, Repr

/-- SHA-256 comes from a library and is a parameter of everything that hashes. -/
def StateHash.digest (sha256 : List UInt8 → Vector UInt8 32) (value : List UInt8) : StateHash :=
  { bytes := sha256 value }

end Elura
