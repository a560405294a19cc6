import Elura.Basis.BigEndian
import Elura.Basis.Rust
import Elura.Core.Values

/-!
The whole-room byte snapshot stream: keyframes carry a state, deltas its xor with
the previous state of the stream. The hash function is a parameter, so nothing
here relies on it being free of collisions.
-/

namespace Elura.SnapshotReplication

open List hiding Vector

open Fallible

inductive PacketKind
  | keyframe
  | delta
  deriving DecidableEq, Repr

structure Packet where
  roomId : String
  tick : Nat
  elapsed : Nat
  baseTick : Nat
  kind : PacketKind
  payload : List UInt8
  stateHash : StateHash
  deriving DecidableEq, Repr

structure ReplicationConfig where
  keyframeInterval : Nat
  maxPayload : Nat
  deriving DecidableEq, Repr

def ReplicationConfig.default : ReplicationConfig where
  keyframeInterval := 60
  maxPayload := 4 * 2 ^ 20

structure ReplicationStream where
  room : String
  config : ReplicationConfig
  previous : Option (Nat × List UInt8)
  force : Bool
  deriving DecidableEq, Repr

structure ReplicationReceiver where
  room : String
  max : Nat
  current : Option (Nat × List UInt8)
  deriving DecidableEq, Repr

section Delta

def xorBytes (base now : List UInt8) : List UInt8 :=
  now.mapIdx (fun index byte => byte ^^^ base[index]?.getD 0)

/-- Trailing zeros are popped, the four length bytes never. -/
def xorDelta (base now : List UInt8) : Except Error (List UInt8) :=
  if 2 ^ 32 ≤ now.length then .error (.invalidFrame "state too large")
  else .ok (putUint 4 now.length ++ (xorBytes base now).rdropWhile (· = 0))

def xorApply (base delta : List UInt8) : Except Error (List UInt8) :=
  if delta.length < 4 then .error (.invalidFrame "delta")
  else .ok ((List.range (getUint 4 delta).1).map
    (fun index => base[index]?.getD 0 ^^^ delta[index + 4]?.getD 0))

theorem getD_rdropWhile_zero (bytes : List UInt8) (index : Nat) :
    (bytes.rdropWhile (· = 0))[index]?.getD 0 = bytes[index]?.getD 0 := by
  induction bytes using reverseRecOn with
  | nil => rfl
  | append_singleton bytes byte ih =>
    by_cases zero : byte = 0
    · rw [rdropWhile_concat_pos _ _ _ (by simp [zero]), ih, zero]
      by_cases inside : index < bytes.length
      · rw [getElem?_append_left inside]
      · rw [getElem?_append_right (by omega), getElem?_eq_none (by omega)]
        cases index - bytes.length with
        | zero | succ => rfl
    · rw [rdropWhile_concat_neg _ _ _ (by simp [zero])]

theorem xorDelta_length {base now delta : List UInt8} (encoded : xorDelta base now = .ok delta) :
    now.length < 2 ^ 32 ∧ 4 ≤ delta.length := by
  unfold xorDelta at encoded
  split_ifs at encoded with large
  cases encoded
  refine ⟨Nat.not_le.mp large, ?_⟩
  rw [length_append, length_putUint]
  omega

theorem xorApply_xorDelta {base now delta : List UInt8}
    (encoded : xorDelta base now = .ok delta) : xorApply base delta = .ok now := by
  obtain ⟨small, long⟩ := xorDelta_length encoded
  rw [xorDelta, if_neg (Nat.not_le.mpr small)] at encoded
  cases encoded
  have length := getUint_putUint 4 now.length ((xorBytes base now).rdropWhile (· = 0)) small
  rw [xorApply, length]
  refine congrArg Except.ok (ext_getElem (by simp) ?_)
  intro index bound inside
  have byte : (putUint 4 now.length ++ (xorBytes base now).rdropWhile (· = 0))[index + 4]?.getD 0 =
      now[index] ^^^ base[index]?.getD 0 := by
    rw [getElem?_append_right (by simp), getD_rdropWhile_zero]
    simp [xorBytes, inside]
  rw [getElem_map, getElem_range, byte, UInt8.xor_comm, UInt8.xor_assoc, UInt8.xor_self,
    UInt8.xor_zero]

end Delta

section Definitions

variable (sha256 : List UInt8 → Vector UInt8 32)

namespace ReplicationStream

def new (room : String) (config : ReplicationConfig) : Except Error ReplicationStream :=
  if room.isEmpty ∨ config.keyframeInterval = 0 ∨ config.maxPayload = 0 then
    .error (.invalidConfig "replication")
  else
    .ok { room, config, previous := none, force := true }

def forceKeyframe (stream : ReplicationStream) : ReplicationStream :=
  { stream with force := true }

def periodic (stream : ReplicationStream) (tick : Nat) : Bool :=
  tick % stream.config.keyframeInterval = 0

def packetBody (stream : ReplicationStream) (tick : Nat) (state : List UInt8) :
    Except Error (Nat × PacketKind × List UInt8) :=
  match stream.previous with
  | none => .ok (0, .keyframe, state)
  | some (baseTick, base) =>
    if stream.force = false ∧ stream.periodic tick = false then
      match xorDelta base state with
      | .error error => .error error
      | .ok delta =>
        if delta.length < state.length then .ok (baseTick, .delta, delta)
        else .ok (0, .keyframe, state)
    else .ok (0, .keyframe, state)

def packet (tick : Nat) (state : List UInt8) : Fallible ReplicationStream Error Packet := do
  let stream ← get
  if tick = 0 ∨ stream.config.maxPayload < state.length ∨
      stream.previous.any (fun previous => tick ≤ previous.1) then
    throw (.invalidFrame "replication tick or size")
  let (baseTick, kind, payload) ← liftM (stream.packetBody tick state)
  set { stream with previous := some (tick, state), force := false }
  return { roomId := stream.room, tick, elapsed := 0, baseTick, kind, payload,
           stateHash := .digest sha256 state }

end ReplicationStream

namespace ReplicationReceiver

def new (room : String) (max : Nat) : Except Error ReplicationReceiver :=
  if max = 0 then .error (.invalidConfig "replication")
  else .ok { room, max, current := none }

def decoded (receiver : ReplicationReceiver) (packet : Packet) : Except Error (List UInt8) :=
  match packet.kind with
  | .keyframe =>
    if packet.baseTick = 0 then .ok packet.payload else .error (.invalidFrame "invalid keyframe")
  | .delta =>
    match receiver.current with
    | none => .error (.invalidFrame "missing base")
    | some (tick, base) =>
      if tick ≠ packet.baseTick then .error (.invalidFrame "base mismatch")
      else xorApply base packet.payload

def validated (receiver : ReplicationReceiver) (packet : Packet) : Except Error (List UInt8) :=
  if packet.roomId ≠ receiver.room ∨ packet.tick = 0 ∨ receiver.max < packet.payload.length ∨
      receiver.current.any (fun current => packet.tick ≤ current.1) then
    .error (.invalidFrame "replication packet")
  else
    match receiver.decoded packet with
    | .error error => .error error
    | .ok state =>
      if receiver.max < state.length ∨ packet.stateHash ≠ .digest sha256 state then
        .error (.invalidFrame "state hash")
      else .ok state

def apply (packet : Packet) : Fallible ReplicationReceiver Error (List UInt8) := do
  let receiver ← get
  let state ← liftM (receiver.validated sha256 packet)
  set { receiver with current := some (packet.tick, state) }
  return state

/-- The buffer `apply` builds for a packet, whether or not it is kept. -/
def built (receiver : ReplicationReceiver) (packet : Packet) : Option (List UInt8) :=
  if packet.roomId ≠ receiver.room ∨ packet.tick = 0 ∨ receiver.max < packet.payload.length ∨
      receiver.current.any (fun current => packet.tick ≤ current.1) then none
  else (receiver.decoded packet).toOption

def applyAll : List Packet → Fallible ReplicationReceiver Error Unit
  | [] => pure ()
  | packet :: packets => do
      let _ ← apply sha256 packet
      applyAll packets

end ReplicationReceiver

end Definitions

section Specifications

variable {sha256 : List UInt8 → Vector UInt8 32}
variable {stream : ReplicationStream} {tick : Nat} {state : List UInt8}
  {receiver : ReplicationReceiver} {packet : Packet}

def ReplicationStream.SendsDelta (stream : ReplicationStream) (tick : Nat) (state : List UInt8) :
    Prop :=
  ∃ last base delta, stream.previous = some (last, base) ∧ stream.force = false ∧
    stream.periodic tick = false ∧ xorDelta base state = .ok delta ∧ delta.length < state.length

structure Encodes (sha256 : List UInt8 → Vector UInt8 32) (stream : ReplicationStream)
    (tick : Nat) (state : List UInt8) (packet : Packet) : Prop where
  positive : 0 < tick
  fits : state.length ≤ stream.config.maxPayload
  newer : ∀ last base, stream.previous = some (last, base) → last < tick
  room : packet.roomId = stream.room
  stamped : packet.tick = tick
  hashed : packet.stateHash = .digest sha256 state
  body : (packet.kind = .keyframe ∧ packet.baseTick = 0 ∧ packet.payload = state) ∨
    (packet.kind = .delta ∧ packet.payload.length < state.length ∧
      ∃ base, stream.previous = some (packet.baseTick, base) ∧
        xorDelta base state = .ok packet.payload)
  chosen : packet.kind = .delta ↔ stream.SendsDelta tick state

theorem packetBody_ok {baseTick : Nat} {kind : PacketKind} {payload : List UInt8}
    (produced : stream.packetBody tick state = .ok (baseTick, kind, payload)) :
    ((kind = .keyframe ∧ baseTick = 0 ∧ payload = state) ∨
      (kind = .delta ∧ payload.length < state.length ∧
        ∃ base, stream.previous = some (baseTick, base) ∧ xorDelta base state = .ok payload)) ∧
    (kind = .delta ↔ stream.SendsDelta tick state) := by
  unfold ReplicationStream.packetBody at produced
  cases previous : stream.previous with
  | none =>
    simp only [previous] at produced
    cases produced
    exact ⟨.inl ⟨rfl, rfl, rfl⟩, by simp [ReplicationStream.SendsDelta, previous]⟩
  | some last =>
    obtain ⟨lastTick, base⟩ := last
    simp only [previous] at produced
    split_ifs at produced with plain
    · cases encoded : xorDelta base state with
      | error => simp [encoded] at produced
      | ok delta =>
        simp only [encoded] at produced
        split_ifs at produced with shorter
        · cases produced
          exact ⟨.inr ⟨rfl, shorter, base, rfl, encoded⟩,
            by simp [ReplicationStream.SendsDelta, previous, plain, encoded, shorter]⟩
        · cases produced
          exact ⟨.inl ⟨rfl, rfl, rfl⟩,
            by simp [ReplicationStream.SendsDelta, previous, encoded, shorter]⟩
    · cases produced
      exact ⟨.inl ⟨rfl, rfl, rfl⟩, nofun,
        fun ⟨_, _, _, _, unforced, unperiodic, _⟩ => absurd ⟨unforced, unperiodic⟩ plain⟩

variable (sha256) in
theorem packet_cases (stream : ReplicationStream) (tick : Nat) (state : List UInt8) :
    (∃ error, (ReplicationStream.packet sha256 tick state).call stream = (.error error, stream)) ∨
    ∃ packet, (ReplicationStream.packet sha256 tick state).call stream =
        (.ok packet, { stream with previous := some (tick, state), force := false }) ∧
      Encodes sha256 stream tick state packet := by
  simp only [ReplicationStream.packet, call_bind, call_get]
  by_cases rejected : tick = 0 ∨ stream.config.maxPayload < state.length ∨
      stream.previous.any (fun previous => tick ≤ previous.1) = true
  · simp [rejected]
  · simp only [rejected]
    cases produced : stream.packetBody tick state with
    | error error => exact .inl ⟨error, rfl⟩
    | ok body =>
      obtain ⟨baseTick, kind, payload⟩ := body
      simp only [not_or, Nat.not_lt] at rejected
      refine .inr ⟨_, rfl, ?_⟩
      refine { positive := by omega, fits := rejected.2.1, newer := ?_, room := rfl,
               stamped := rfl, hashed := rfl, body := (packetBody_ok produced).1,
               chosen := (packetBody_ok produced).2 }
      intro last base previous
      simpa [previous] using rejected.2.2

theorem call_apply (receiver : ReplicationReceiver) (packet : Packet) :
    (ReplicationReceiver.apply sha256 packet).call receiver =
      match receiver.validated sha256 packet with
      | .error error => (.error error, receiver)
      | .ok state => (.ok state, { receiver with current := some (packet.tick, state) }) := by
  simp only [ReplicationReceiver.apply, call_bind, call_get]
  cases receiver.validated sha256 packet with
  | error | ok => rfl

theorem validated_ok (accepted : receiver.validated sha256 packet = .ok state) :
    (∀ tick last, receiver.current = some (tick, last) → tick < packet.tick) ∧
      receiver.decoded packet = .ok state := by
  unfold ReplicationReceiver.validated at accepted
  split_ifs at accepted with rejected
  simp only [not_or] at rejected
  cases decoded : receiver.decoded packet with
  | error => simp [decoded] at accepted
  | ok =>
    simp only [decoded] at accepted
    split_ifs at accepted
    cases accepted
    refine ⟨?_, rfl⟩
    intro tick last current
    simpa [current] using rejected.2.2.2

/-- A receiver that has applied every earlier packet decodes the next one. -/
theorem Encodes.decoded (encodes : Encodes sha256 stream tick state packet)
    (synchronised : receiver.current = stream.previous) : receiver.decoded packet = .ok state := by
  rcases encodes.body with ⟨kind, base, payload⟩ | ⟨kind, _, base, previous, encoded⟩
  · simp only [ReplicationReceiver.decoded, kind, base, if_true, payload]
  · simp only [ReplicationReceiver.decoded, kind, synchronised, previous, ne_eq,
      not_true_eq_false, if_false, xorApply_xorDelta encoded]

theorem built_of_validated (accepted : receiver.validated sha256 packet = .ok state) :
    receiver.built packet = some state := by
  have decoded := (validated_ok accepted).2
  unfold ReplicationReceiver.validated at accepted
  unfold ReplicationReceiver.built
  split_ifs at accepted ⊢
  rw [decoded]
  rfl

theorem xorApply_length {base delta : List UInt8} (applied : xorApply base delta = .ok state) :
    state.length = (getUint 4 delta).1 := by
  unfold xorApply at applied
  split_ifs at applied
  cases applied
  simp

def sampleDelta (length : UInt8) : Packet where
  roomId := "room"
  tick := 2
  elapsed := 0
  baseTick := 1
  kind := .delta
  payload := [0, 0, 0, length]
  stateHash := ⟨.replicate 32 0⟩

def sampleReceiver : ReplicationReceiver := ⟨"room", 8, some (1, [])⟩

end Specifications

end Elura.SnapshotReplication
