import Elura.Core.Values

/-!
Replay records as the reader hands them on. The framing of a record in bytes is
not part of this module: a reader is the list of records still to be read.
-/

namespace Elura

structure ReplayHeader where
  roomId : String
  tickRate : Nat
  inputDelayTicks : Nat
  rollbackWindowTicks : Nat
  deriving DecidableEq, Repr

inductive ReplayRecord (C : Type)
  | command (tick : Nat) (player : PlayerKey) (sequence : Nat) (command : C)
  | tick (tick : Nat)
  | checkpoint (tick : Nat) (state : List UInt8) (stateHash : Vector UInt8 32)
  deriving DecidableEq, Repr

structure ReplayReader (C : Type) where
  header : ReplayHeader
  records : List (ReplayRecord C)
  last : Nat

def ReplayRecord.tickNumber {C : Type} : ReplayRecord C → Nat
  | .command number _ _ _ => number
  | .tick number => number
  | .checkpoint number _ _ => number

def ReplayRecord.check {C : Type} (sha256 : List UInt8 → Vector UInt8 32) (last : Nat)
    (record : ReplayRecord C) : Except Error Unit :=
  if record.tickNumber = 0 ∨ record.tickNumber < last then .error (.invalidFrame "replay order")
  else
    match record with
    | .checkpoint _ state stateHash =>
      if ({ bytes := stateHash } : StateHash) = .digest sha256 state then .ok ()
      else .error (.invalidFrame "checkpoint hash")
    | _ => .ok ()

end Elura
