import Elura.Core.SnapshotReplication

/-!
A snapshot stream and one of its receivers, joined by a network that loses,
duplicates and reorders packets. `passed` lists the states given to successful
`packet` calls; everything a receiver can hold is one of them.
-/

namespace Elura.SnapshotReplication

open List hiding Vector

structure Broadcast where
  stream : ReplicationStream
  receiver : ReplicationReceiver
  passed : List (Nat × List UInt8)
  packets : List Packet

namespace Broadcast

section Steps

variable (sha256 : List UInt8 → Vector UInt8 32)

def start (stream : ReplicationStream) (receiver : ReplicationReceiver) : Broadcast :=
  { stream, receiver, passed := [], packets := [] }

def afterPacket (broadcast : Broadcast) (tick : Nat) (state : List UInt8) : Broadcast :=
  match (ReplicationStream.packet sha256 tick state).call broadcast.stream with
  | (.ok packet, stream) =>
    { broadcast with
      stream
      passed := broadcast.passed ++ [(tick, state)]
      packets := broadcast.packets ++ [packet] }
  | (.error _, stream) => { broadcast with stream }

inductive Step : Broadcast → Broadcast → Prop
  | packet (broadcast : Broadcast) (tick : Nat) (state : List UInt8) :
      Step broadcast (broadcast.afterPacket sha256 tick state)
  | forceKeyframe (broadcast : Broadcast) :
      Step broadcast { broadcast with stream := broadcast.stream.forceKeyframe }
  | deliver (broadcast : Broadcast) (packet : Packet) (sent : packet ∈ broadcast.packets) :
      Step broadcast { broadcast with
        receiver := ((ReplicationReceiver.apply sha256 packet).call broadcast.receiver).2 }

abbrev Reachable : Broadcast → Broadcast → Prop := Relation.ReflTransGen (Step sha256)

end Steps

section Invariant

variable {sha256 : List UInt8 → Vector UInt8 32}
variable {room : String} {maxPayload : Nat} {passed : List (Nat × List UInt8)} {packet : Packet}
  {state : List UInt8} {receiver first : ReplicationReceiver} {config : ReplicationConfig}
  {broadcast : Broadcast}

structure Carries (sha256 : List UInt8 → Vector UInt8 32) (room : String) (maxPayload : Nat)
    (passed : List (Nat × List UInt8)) (packet : Packet) (state : List UInt8) : Prop where
  source : (packet.tick, state) ∈ passed
  positive : 0 < packet.tick
  fits : state.length ≤ maxPayload
  room : packet.roomId = room
  hashed : packet.stateHash = .digest sha256 state
  body : (packet.kind = .keyframe ∧ packet.baseTick = 0 ∧ packet.payload = state) ∨
    (packet.kind = .delta ∧ packet.payload.length < state.length ∧
      ∃ base, (packet.baseTick, base) ∈ passed ∧ xorDelta base state = .ok packet.payload)

section

variable (carries : Carries sha256 room maxPayload passed packet state)
include carries

theorem Carries.mono {later : List (Nat × List UInt8)} (included : passed ⊆ later) :
    Carries sha256 room maxPayload later packet state := by
  refine { carries with source := included carries.source, body := ?_ }
  rcases carries.body with keyframe | ⟨kind, shorter, base, source, encoded⟩
  · exact .inl keyframe
  · exact .inr ⟨kind, shorter, base, included source, encoded⟩

theorem Carries.payload_fits :
    packet.payload.length ≤ maxPayload := by
  have fits := carries.fits
  rcases carries.body with ⟨_, _, same⟩ | ⟨_, shorter, _⟩
  · rw [same]
    exact fits
  · omega

theorem Carries.validated
    (sameRoom : receiver.room = room) (large : maxPayload ≤ receiver.max)
    (newer : ∀ tick last, receiver.current = some (tick, last) → tick < packet.tick)
    (decoded : receiver.decoded packet = .ok state) :
    receiver.validated sha256 packet = .ok state := by
  have payload := carries.payload_fits
  have fits := carries.fits
  have positive := carries.positive
  have fresh : receiver.current.any (fun current => packet.tick ≤ current.1) = false := by
    cases current : receiver.current with
    | none => rfl
    | some last =>
      have later := newer last.1 last.2 current
      simpa using later
  have accepted : ¬(packet.roomId ≠ receiver.room ∨ packet.tick = 0 ∨
      receiver.max < packet.payload.length ∨
      receiver.current.any (fun current => packet.tick ≤ current.1) = true) := by
    rw [carries.room, sameRoom, fresh]
    simp only [ne_eq, not_true_eq_false, Bool.false_eq_true, or_false, false_or]
    omega
  rw [ReplicationReceiver.validated, if_neg accepted, decoded]
  refine if_neg ?_
  rw [carries.hashed]
  simp only [ne_eq, not_true_eq_false, or_false]
  omega

end

structure Invariant (sha256 : List UInt8 → Vector UInt8 32) (room : String)
    (config : ReplicationConfig) (first : ReplicationReceiver) (broadcast : Broadcast) : Prop where
  streamRoom : broadcast.stream.room = room
  streamConfig : broadcast.stream.config = config
  receiverRoom : broadcast.receiver.room = room
  receiverMax : broadcast.receiver.max = first.max
  previous : broadcast.stream.previous = broadcast.passed.getLast?
  ascending : (broadcast.passed.map Prod.fst).Pairwise (· < ·)
  carried : ∀ packet ∈ broadcast.packets, ∃ state,
    Carries sha256 room config.maxPayload broadcast.passed packet state
  held : ∀ current, broadcast.receiver.current = some current → current ∈ broadcast.passed
  inOrder : (ReplicationReceiver.applyAll sha256 broadcast.packets).call first =
    (.ok (), { first with current := broadcast.passed.getLast? })

theorem state_unique (ascending : (passed.map Prod.fst).Pairwise (· < ·)) {tick : Nat}
    {other : List UInt8} (first : (tick, state) ∈ passed) (second : (tick, other) ∈ passed) :
    state = other :=
  congrArg Prod.snd (inj_on_of_nodup_map (ascending.imp Nat.ne_of_lt) first second rfl)

theorem last_greatest (ascending : (passed.map Prod.fst).Pairwise (· < ·)) {last : Nat × List UInt8}
    (final : passed.getLast? = some last) {entry : Nat × List UInt8} (member : entry ∈ passed) :
    entry.1 ≤ last.1 := by
  obtain ⟨before, rfl⟩ := getLast?_eq_some_iff.mp final
  rw [map_append, pairwise_append] at ascending
  rcases mem_append.mp member with earlier | same
  · have smaller := ascending.2.2 entry.1 (mem_map_of_mem earlier) last.1 (by simp)
    omega
  · rw [mem_singleton] at same
    rw [same]

theorem applyAll_append (earlier later : List Packet) (receiver : ReplicationReceiver) :
    (ReplicationReceiver.applyAll sha256 (earlier ++ later)).call receiver =
      match (ReplicationReceiver.applyAll sha256 earlier).call receiver with
      | (.ok _, after) => (ReplicationReceiver.applyAll sha256 later).call after
      | (.error error, after) => (.error error, after) := by
  induction earlier generalizing receiver with
  | nil => rfl
  | cons packet _ ih =>
    simp only [cons_append, ReplicationReceiver.applyAll, Fallible.call_bind]
    rcases (ReplicationReceiver.apply sha256 packet).call receiver with ⟨_ | _, after⟩
    · rfl
    · exact ih after

theorem invariant_start {max : Nat} {stream : ReplicationStream}
    (createdStream : ReplicationStream.new room config = .ok stream)
    (createdReceiver : ReplicationReceiver.new room max = .ok receiver) :
    receiver.max = max ∧ Invariant sha256 room config receiver (start stream receiver) := by
  simp only [ReplicationStream.new] at createdStream
  split_ifs at createdStream
  cases createdStream
  simp only [ReplicationReceiver.new] at createdReceiver
  split_ifs at createdReceiver
  cases createdReceiver
  exact ⟨rfl, rfl, rfl, rfl, rfl, rfl, List.Pairwise.nil, nofun, nofun, rfl⟩

theorem carries_of_encodes {tick : Nat} (invariant : Invariant sha256 room config first broadcast)
    (encodes : Encodes sha256 broadcast.stream tick state packet) :
    Carries sha256 room config.maxPayload (broadcast.passed ++ [(tick, state)]) packet state := by
  refine { source := by simp [encodes.stamped], positive := ?_, fits := ?_, room := ?_,
           hashed := encodes.hashed, body := ?_ }
  · rw [encodes.stamped]
    exact encodes.positive
  · rw [← invariant.streamConfig]
    exact encodes.fits
  · rw [encodes.room, invariant.streamRoom]
  · rcases encodes.body with keyframe | ⟨kind, shorter, base, previous, encoded⟩
    · exact .inl keyframe
    · rw [invariant.previous] at previous
      have member := mem_append_left [(tick, state)] (mem_of_getLast? previous)
      exact .inr ⟨kind, shorter, base, member, encoded⟩

theorem invariant_packet (firstRoom : first.room = room) (large : config.maxPayload ≤ first.max)
    (invariant : Invariant sha256 room config first broadcast) (tick : Nat) (state : List UInt8) :
    Invariant sha256 room config first (broadcast.afterPacket sha256 tick state) := by
  rcases packet_cases sha256 broadcast.stream tick state with
    ⟨error, failed⟩ | ⟨packet, produced, encodes⟩
  · simp only [afterPacket, failed]
    exact invariant
  · simp only [afterPacket, produced]
    have carries := carries_of_encodes invariant encodes
    have included : broadcast.passed ⊆ broadcast.passed ++ [(tick, state)] :=
      subset_append_left _ _
    refine { invariant with
      previous := by simp
      ascending := ?_
      carried := ?_
      held := fun current found => included (invariant.held current found)
      inOrder := ?_ }
    · rw [map_append, pairwise_append]
      refine ⟨invariant.ascending, pairwise_singleton _ _, ?_⟩
      intro earlier inEarlier last inLast
      simp only [map_cons, map_nil, mem_singleton] at inLast
      subst last
      obtain ⟨entry, member, rfl⟩ := mem_map.mp inEarlier
      cases final : broadcast.passed.getLast? with
      | none =>
        rw [getLast?_eq_none_iff.mp final] at member
        cases member
      | some last =>
        have newer := encodes.newer last.1 last.2 (by rw [invariant.previous, final])
        have greatest := last_greatest invariant.ascending final member
        omega
    · refine forall_mem_append.mpr ⟨fun other old => ?_, forall_mem_singleton.mpr ⟨state, carries⟩⟩
      obtain ⟨value, earlier⟩ := invariant.carried other old
      exact ⟨value, earlier.mono included⟩
    · have newer : ∀ earlier last, broadcast.passed.getLast? = some (earlier, last) →
          earlier < packet.tick := by
        intro earlier last final
        rw [encodes.stamped]
        exact encodes.newer earlier last (by rw [invariant.previous, final])
      have accepted : ReplicationReceiver.validated sha256
          { first with current := broadcast.passed.getLast? } packet = .ok state :=
        carries.validated firstRoom large newer (encodes.decoded invariant.previous.symm)
      rw [applyAll_append, invariant.inOrder]
      simp only [ReplicationReceiver.applyAll, Fallible.call_bind, call_apply, accepted,
        encodes.stamped, getLast?_concat, Fallible.call_pure]

theorem decoded_carried {value : List UInt8} (ascending : (passed.map Prod.fst).Pairwise (· < ·))
    (held : ∀ current, receiver.current = some current → current ∈ passed)
    (carries : Carries sha256 room maxPayload passed packet state)
    (decoded : receiver.decoded packet = .ok value) : value = state := by
  rcases carries.body with ⟨kind, base, payload⟩ | ⟨kind, _, base, source, encoded⟩
  · simp only [ReplicationReceiver.decoded, kind, base, if_true, Except.ok.injEq] at decoded
    rw [← decoded, payload]
  · simp only [ReplicationReceiver.decoded, kind] at decoded
    cases current : receiver.current with
    | none => simp [current] at decoded
    | some last =>
      obtain ⟨tick, _⟩ := last
      simp only [current] at decoded
      split_ifs at decoded with other
      simp only [not_not] at other
      subst tick
      have same := state_unique ascending (held _ current) source
      rw [same, xorApply_xorDelta encoded] at decoded
      cases decoded
      rfl

theorem invariant_deliver (invariant : Invariant sha256 room config first broadcast)
    (sent : packet ∈ broadcast.packets) :
    Invariant sha256 room config first { broadcast with
      receiver := ((ReplicationReceiver.apply sha256 packet).call broadcast.receiver).2 } := by
  obtain ⟨state, carries⟩ := invariant.carried packet sent
  cases outcome : broadcast.receiver.validated sha256 packet with
  | error =>
    simp only [call_apply, outcome]
    exact invariant
  | ok =>
    simp only [call_apply, outcome]
    obtain ⟨_, decoded⟩ := validated_ok outcome
    have same := decoded_carried invariant.ascending invariant.held carries decoded
    refine { invariant with held := ?_ }
    intro current found
    simp only [Option.some.injEq] at found
    rw [← found, same]
    exact carries.source

theorem invariant_reachable {initial : Broadcast} (firstRoom : first.room = room)
    (large : config.maxPayload ≤ first.max) (invariant : Invariant sha256 room config first initial)
    (reachable : Reachable sha256 initial broadcast) :
    Invariant sha256 room config first broadcast := by
  induction reachable with
  | refl => exact invariant
  | tail _ step ih =>
    cases step with
    | packet tick state => exact invariant_packet firstRoom large ih tick state
    | forceKeyframe => exact { ih with }
    | deliver _ sent => exact invariant_deliver ih sent

end Invariant

section Results

/-- Whatever the network does, a receiver only ever holds states as they were
passed to the stream, and in-order delivery never fails. -/
theorem broadcast_exact (sha256 : List UInt8 → Vector UInt8 32) (room : String)
    (config : ReplicationConfig) (max : Nat) (stream : ReplicationStream)
    (receiver : ReplicationReceiver)
    (createdStream : ReplicationStream.new room config = .ok stream)
    (createdReceiver : ReplicationReceiver.new room max = .ok receiver)
    (large : config.maxPayload ≤ max) (broadcast : Broadcast)
    (reachable : Reachable sha256 (start stream receiver) broadcast) :
    (∀ tick state, broadcast.receiver.current = some (tick, state) →
      (tick, state) ∈ broadcast.passed ∧
        ∀ other, (tick, other) ∈ broadcast.passed → other = state) ∧
    (∀ packet error after,
      (ReplicationReceiver.apply sha256 packet).call broadcast.receiver = (.error error, after) →
      after = broadcast.receiver) ∧
    (∀ packet state after,
      (ReplicationReceiver.apply sha256 packet).call broadcast.receiver = (.ok state, after) →
      after.current = some (packet.tick, state) ∧
        ∀ tick last, broadcast.receiver.current = some (tick, last) → tick < packet.tick) ∧
    (∀ packet ∈ broadcast.packets, packet.kind = .keyframe →
      (∀ tick last, broadcast.receiver.current = some (tick, last) → tick < packet.tick) →
      ∃ state, ((ReplicationReceiver.apply sha256 packet).call broadcast.receiver).1 = .ok state) ∧
    ((ReplicationReceiver.applyAll sha256 broadcast.packets).call receiver).1 = .ok () ∧
    (∀ base now : List UInt8, base.length < 2 ^ 32 → now.length < 2 ^ 32 →
      ∃ delta, xorDelta base now = .ok delta ∧ xorApply base delta = .ok now) := by
  obtain ⟨sameMax, initial⟩ := invariant_start createdStream createdReceiver
  have invariant : Invariant sha256 room config receiver broadcast :=
    invariant_reachable initial.receiverRoom (sameMax ▸ large) initial reachable
  refine ⟨?_, ?_, ?_, ?_, ?_, ?_⟩
  · intro tick state current
    have member := invariant.held _ current
    exact ⟨member, fun other source => state_unique invariant.ascending source member⟩
  · intro packet error after failed
    rw [call_apply] at failed
    split at failed
    · exact (congrArg Prod.snd failed).symm
    · cases failed
  · intro packet state after applied
    rw [call_apply] at applied
    cases outcome : broadcast.receiver.validated sha256 packet with
    | error => simp [outcome] at applied
    | ok =>
      simp only [outcome] at applied
      obtain ⟨rfl, rfl⟩ := applied
      exact ⟨rfl, (validated_ok outcome).1⟩
  · intro packet sent keyframe newer
    obtain ⟨state, carries⟩ := invariant.carried packet sent
    have decoded : broadcast.receiver.decoded packet = .ok state := by
      rcases carries.body with ⟨_, base, payload⟩ | ⟨delta, _⟩
      · simp only [ReplicationReceiver.decoded, keyframe, base, if_true, payload]
      · rw [keyframe] at delta
        cases delta
    have accepted := carries.validated invariant.receiverRoom
      (by rw [invariant.receiverMax, sameMax]; exact large) newer decoded
    exact ⟨state, by rw [call_apply, accepted]⟩
  · rw [invariant.inOrder]
  · intro base now _ small
    have encoded : xorDelta base now =
        .ok (putUint 4 now.length ++ (xorBytes base now).rdropWhile (· = 0)) :=
      if_neg (Nat.not_le.mpr small)
    exact ⟨_, encoded, xorApply_xorDelta encoded⟩

def sampleSha256 (value : List UInt8) : Vector UInt8 32 :=
  if value = [1, 1, 1, 1, 1, 1, 1, 1] then
    #v[4, 171, 200, 130, 26, 6, 229, 163, 9, 55, 150, 125, 17, 173, 16, 34,
        28, 181, 172, 59, 82, 115, 228, 52, 241, 40, 78, 232, 113, 41, 160, 97]
  else if value = [2, 1, 1, 1, 1, 1, 1, 1] then
    #v[223, 240, 88, 244, 1, 26, 190, 143, 197, 39, 155, 141, 69, 112, 249, 147,
        35, 62, 102, 59, 6, 12, 26, 63, 140, 146, 78, 76, 219, 167, 31, 239]
  else .replicate 32 0

def sampleStream : ReplicationStream :=
  { room := "room", config := .default, previous := none, force := true }

def sampleReceiver : ReplicationReceiver :=
  { room := "room", max := 4 * 2 ^ 20, current := none }

def sampleBroadcast : Broadcast :=
  ((start sampleStream sampleReceiver).afterPacket sampleSha256 1
    [1, 1, 1, 1, 1, 1, 1, 1]).afterPacket sampleSha256 2 [2, 1, 1, 1, 1, 1, 1, 1]

theorem broadcast_exact_sampleBroadcast :
    sampleBroadcast.packets.map Packet.kind = [.keyframe, .delta] ∧
    ((ReplicationReceiver.applyAll sampleSha256 sampleBroadcast.packets).call
      sampleReceiver).1 = .ok () := by
  refine ⟨by decide +kernel, ?_⟩
  exact (broadcast_exact sampleSha256 "room" .default (4 * 2 ^ 20) sampleStream sampleReceiver
    (by decide) (by decide) (by decide) sampleBroadcast
    ((Relation.ReflTransGen.single (Step.packet _ 1 _)).tail (Step.packet _ 2 _))).2.2.2.2.1

end Results

end Broadcast

end Elura.SnapshotReplication
