import Elura.Core.Values

/-!
Push requests: what is pushed, to whom, and which requests are well formed.
-/

namespace Elura

inductive PushTarget
  | session (id : Uuid)
  | user (userId : Int)
  | users (userIds : List Int)
  | realm
  | topic (topic : String)
  | joinTopic (sessionId : Uuid) (topic : String)
  | leaveTopic (sessionId : Uuid) (topic : String)
  | disconnect (id : Uuid)
  deriving DecidableEq, Repr

structure PushRequest where
  regionId : UInt32
  realmId : UInt32
  target : PushTarget
  route : UInt32
  sequence : UInt32
  traceId : String
  payload : List UInt8
  deriving DecidableEq, Repr

def topicCharacter (character : Char) : Bool :=
  character.isAlphanum || character == '-' || character == '_' || character == '.' ||
    character == ':'

def validTopic (topic : String) : Bool :=
  topic ≠ "" && topic.utf8ByteSize ≤ 128 && topic.toList.all topicCharacter

namespace PushTarget

def control : PushTarget → Bool
  | joinTopic .. | leaveTopic .. | disconnect _ => true
  | _ => false

def valid : PushTarget → Bool
  | session id | disconnect id => id ≠ 0
  | user _ | realm => true
  | users userIds => userIds ≠ [] && userIds.length ≤ 1024
  | topic name => validTopic name
  | joinTopic sessionId name | leaveTopic sessionId name => sessionId ≠ 0 && validTopic name

end PushTarget

def PushRequest.validate (request : PushRequest) : Except Error Unit :=
  if request.regionId = 0 ∨ request.realmId = 0 ∨
      ¬request.target.control ∧ request.route = 0 ∨ 128 < request.traceId.utf8ByteSize ∨
      1024 * 1024 < request.payload.length ∨ ¬request.target.valid then
    .error (.invalidConfig "invalid push")
  else .ok ()

structure PushReceipt where
  accepted : Bool
  delivered : Nat
  sequence : UInt32
  traceId : String
  deriving DecidableEq, Repr

namespace PushReceipt

def accept (request : PushRequest) (delivered : Nat) : PushReceipt where
  accepted := true
  delivered
  sequence := request.sequence
  traceId := request.traceId

end PushReceipt

end Elura
