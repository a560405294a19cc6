import Elura.Core.SnapshotReplication
import Elura.Realtime.Concurrent

/-!
A room that publishes its snapshots through a replication stream, which takes over its new base
before the sink has answered. `pending` is the answer of a sink that the publish timeout
interrupts.
-/

namespace Elura.Realtime

open List hiding Vector

open SnapshotReplication

inductive SinkReply
  | accepted
  | rejected (error : Error)
  | pending
  deriving DecidableEq, Repr

structure Handed where
  packet : Packet
  state : List UInt8
  forced : Bool
  reply : SinkReply
  deriving DecidableEq, Repr

structure ReplicationCounters where
  keyframes : Nat := 0
  deltas : Nat := 0
  bytes : Nat := 0
  errors : Nat := 0
  deriving DecidableEq, Repr

structure ReplicationPublisher (Sn : Type) where
  stream : ReplicationStream
  sink : List Packet → SinkReply
  encoder : Sn → Except Error (List UInt8)
  counters : ReplicationCounters
  handed : List Handed

namespace ReplicationPublisher

section Definitions

variable {Sn : Type}

def new (stream : ReplicationStream) (sink : List Packet → SinkReply)
    (encoder : Sn → Except Error (List UInt8)) : ReplicationPublisher Sn :=
  { stream, sink, encoder, counters := {}, handed := [] }

def forceKeyframe (publisher : ReplicationPublisher Sn) : ReplicationPublisher Sn :=
  { publisher with stream := publisher.stream.forceKeyframe }

def countPublished (publisher : ReplicationPublisher Sn) (packet : Packet) :
    ReplicationPublisher Sn :=
  { publisher with
    counters := { publisher.counters with
      keyframes := publisher.counters.keyframes + (if packet.kind = .keyframe then 1 else 0)
      deltas := publisher.counters.deltas + (if packet.kind = .delta then 1 else 0)
      bytes := publisher.counters.bytes + packet.payload.length } }

def settle (publisher : ReplicationPublisher Sn) (packet : Packet) :
    SinkReply → Publication × ReplicationPublisher Sn
  | .accepted => (.completed, publisher.countPublished packet)
  | .rejected error =>
    (.failed error, forceKeyframe { publisher with
      counters := { publisher.counters with errors := publisher.counters.errors + 1 } })
  | .pending => (.timedOut, publisher)

def publish (sha256 : List UInt8 → Vector UInt8 32) (snapshot : Snapshot Sn)
    (publisher : ReplicationPublisher Sn) : Publication × ReplicationPublisher Sn :=
  match publisher.encoder snapshot.state with
  | .error error => (.failed error, publisher)
  | .ok encoded =>
    match (ReplicationStream.packet sha256 snapshot.tick encoded).call publisher.stream with
    | (.error error, stream) => (.failed error, { publisher with stream })
    | (.ok packet, stream) =>
      let packet := { packet with elapsed := snapshot.elapsed }
      let reply := publisher.sink (publisher.handed.map (·.packet) ++ [packet])
      settle { publisher with
        stream
        handed := publisher.handed ++
          [{ packet, state := encoded, forced := publisher.stream.force, reply }] } packet reply

def snapshotPublisher (sha256 : List UInt8 → Vector UInt8 32) :
    SnapshotPublisher (ReplicationPublisher Sn) Sn where
  publish := publish sha256
  forceKeyframe := forceKeyframe

end Definitions

section Handover

def KeyframeDue (interval : Nat) (before after : Handed) : Prop :=
  after.forced = true ∨ after.packet.tick % interval = 0 ∨
    ∀ delta, xorDelta before.state after.state = .ok delta → after.state.length ≤ delta.length

structure Follows (interval : Nat) (before after : Handed) : Prop where
  newer : before.packet.tick < after.packet.tick
  rejected : ∀ error, before.reply = .rejected error → after.forced = true
  keyframe : KeyframeDue interval before after → after.packet.kind = .keyframe
  delta : ¬KeyframeDue interval before after →
    after.packet.kind = .delta ∧ after.packet.baseTick = before.packet.tick

def Based (handed : List Handed) : Prop :=
  ∀ earlier entry later, handed = earlier ++ entry :: later → entry.packet.kind = .delta →
    ∃ published, (earlier.filter (fun other => other.reply = .accepted)).getLast? = some published ∧
      entry.packet.baseTick = published.packet.tick

def Recovered (interval : Nat) (handed : List Handed) : Prop :=
  handed.IsChain (fun before after => before.reply = .pending → KeyframeDue interval before after)

structure Streaming {Sn : Type} (interval : Nat) (publisher : ReplicationPublisher Sn) : Prop where
  configured : publisher.stream.config.keyframeInterval = interval
  chain : publisher.handed.IsChain (Follows interval)
  first : ∀ entry, publisher.handed.head? = some entry → entry.packet.kind = .keyframe
  previous : publisher.stream.previous =
    publisher.handed.getLast?.map (fun last => (last.packet.tick, last.state))
  forced : ∀ last error, publisher.handed.getLast? = some last → last.reply = .rejected error →
    publisher.stream.force = true

theorem keyframe_of_not_delta {packet : Packet} (other : ¬packet.kind = .delta) :
    packet.kind = .keyframe := by
  cases kind : packet.kind with
  | keyframe => rfl
  | delta => exact absurd kind other

section Steps

variable {Sn : Type} {sha256 : List UInt8 → Vector UInt8 32} {interval : Nat}
variable {publisher : ReplicationPublisher Sn}
section

variable (streaming : Streaming interval publisher)
include streaming

theorem Streaming.forceKeyframe :
    Streaming interval publisher.forceKeyframe :=
  ⟨streaming.configured, streaming.chain, streaming.first, streaming.previous, fun _ _ _ _ => rfl⟩

theorem Streaming.follows {tick : Nat}
    {state : List UInt8} {packet : Packet}
    (encodes : Encodes sha256 publisher.stream tick state packet) (elapsed : Nat)
    (reply : SinkReply) {last : Handed} (chosen : publisher.handed.getLast? = some last) :
    Follows interval last
      { packet := { packet with elapsed }, state, forced := publisher.stream.force, reply } := by
  have previous : publisher.stream.previous = some (last.packet.tick, last.state) := by
    rw [streaming.previous, chosen]
    rfl
  have sends : publisher.stream.SendsDelta tick state ↔ ¬KeyframeDue interval last
      { packet := { packet with elapsed }, state, forced := publisher.stream.force, reply } := by
    simp only [ReplicationStream.SendsDelta, KeyframeDue, previous, Option.some.injEq,
      Prod.mk.injEq, ReplicationStream.periodic, streaming.configured, encodes.stamped, not_or,
      not_forall, not_le, decide_eq_false_iff_not, Bool.not_eq_true]
    constructor
    · rintro ⟨_, _, delta, ⟨rfl, rfl⟩, unforced, unperiodic, encoded, shorter⟩
      exact ⟨unforced, unperiodic, delta, encoded, shorter⟩
    · rintro ⟨unforced, unperiodic, delta, encoded, shorter⟩
      exact ⟨_, _, delta, ⟨rfl, rfl⟩, unforced, unperiodic, encoded, shorter⟩
  refine ⟨?_, ?_, ?_, ?_⟩
  · rw [show ({ packet with elapsed } : Packet).tick = tick from encodes.stamped]
    exact encodes.newer _ _ previous
  · intro error rejected
    exact streaming.forced last error chosen rejected
  · intro due
    exact keyframe_of_not_delta (fun delta => sends.mp (encodes.chosen.mp delta) due)
  · intro undue
    have delta := encodes.chosen.mpr (sends.mpr undue)
    refine ⟨delta, ?_⟩
    rcases encodes.body with ⟨keyframe, _⟩ | ⟨_, _, base, found, _⟩
    · rw [delta] at keyframe
      cases keyframe
    · rw [previous, Option.some.injEq, Prod.mk.injEq] at found
      exact found.1.symm

theorem Streaming.handOver {next : ReplicationPublisher Sn} {tick elapsed : Nat} {state : List UInt8}
    {packet : Packet} {reply : SinkReply}
    (encodes : Encodes sha256 publisher.stream tick state packet)
    (config : next.stream.config = publisher.stream.config)
    (previous : next.stream.previous = some (tick, state))
    (handed : next.handed = publisher.handed ++ [{ packet := { packet with elapsed }, state
                                                   forced := publisher.stream.force, reply }])
    (forced : ∀ error, reply = .rejected error → next.stream.force = true) :
    Streaming interval next := by
  refine ⟨?_, ?_, ?_, ?_, ?_⟩
  · rw [config]
    exact streaming.configured
  · rw [handed, isChain_append]
    refine ⟨streaming.chain, isChain_singleton _, ?_⟩
    intro last chosen entry first
    simp only [head?_cons, Option.mem_def, Option.some.injEq] at first
    subst entry
    exact streaming.follows encodes elapsed reply chosen
  · intro entry first
    rw [handed] at first
    cases before : publisher.handed with
    | nil =>
      rw [before, nil_append, head?_cons, Option.some.injEq] at first
      subst entry
      refine keyframe_of_not_delta (fun delta => ?_)
      obtain ⟨_, _, _, found, _⟩ := encodes.chosen.mp delta
      rw [streaming.previous, before] at found
      cases found
    | cons head =>
      rw [before] at first
      exact streaming.first entry (by rw [before]; exact first)
  · rw [handed, previous]
    simp [encodes.stamped]
  · intro last error chosen rejected
    rw [handed, getLast?_concat, Option.some.injEq] at chosen
    subst last
    exact forced error rejected

theorem Streaming.publish (snapshot : Snapshot Sn) :
    Streaming interval (publisher.publish sha256 snapshot).2 := by
  unfold ReplicationPublisher.publish
  cases encoding : publisher.encoder snapshot.state with
  | error => exact streaming
  | ok encoded =>
    rcases packet_cases sha256 publisher.stream snapshot.tick encoded with
      ⟨error, failed⟩ | ⟨packet, produced, encodes⟩
    · simp only [failed]
      exact streaming
    · simp only [produced]
      cases answer : publisher.sink (publisher.handed.map (·.packet) ++
          [{ packet with elapsed := snapshot.elapsed }]) with
      | accepted | pending =>
        exact streaming.handOver encodes rfl rfl rfl nofun
      | rejected error => exact streaming.handOver encodes rfl rfl rfl (fun _ _ => rfl)

theorem Streaming.pairwise :
    publisher.handed.Pairwise (fun before after => before.packet.tick < after.packet.tick) := by
  have increasing : publisher.handed.IsChain
      (fun before after => before.packet.tick < after.packet.tick) :=
    streaming.chain.imp (fun _ _ follows => follows.newer)
  have : IsTrans Handed (fun before after => before.packet.tick < after.packet.tick) :=
    ⟨fun _ _ _ early late => lt_trans early late⟩
  exact increasing.pairwise

/-- Deltas are based on accepted packets exactly if every interrupted publication
is followed by a keyframe that is due anyway. -/
theorem Streaming.based_iff :
    Based publisher.handed ↔ Recovered interval publisher.handed := by
  have chain := streaming.chain
  unfold Recovered
  rw [isChain_iff_forall_rel_of_append_cons_cons] at chain ⊢
  constructor
  · intro based before after earlier later split interrupted
    by_contra undue
    obtain ⟨delta, base⟩ := (chain split).delta undue
    obtain ⟨published, last, same⟩ := based (earlier ++ [before]) after later (by simp [split]) delta
    have skipped : [before].filter (fun other => other.reply = .accepted) = [] := by
      simp [interrupted]
    rw [filter_append, skipped, append_nil] at last
    have older : published ∈ earlier := (mem_filter.mp (mem_of_getLast? last)).1
    have increasing := streaming.pairwise
    rw [split, pairwise_append] at increasing
    have smaller := increasing.2.2 published older before (by simp)
    omega
  · intro recovered earlier entry later split delta
    rcases eq_nil_or_concat earlier with rfl | ⟨front, before, rfl⟩
    · have keyframe := streaming.first entry (by rw [split]; rfl)
      rw [delta] at keyframe
      cases keyframe
    · have adjacent : publisher.handed = front ++ before :: entry :: later := by simp [split]
      have following := chain adjacent
      have undue : ¬KeyframeDue interval before entry := by
        intro due
        have keyframe := following.keyframe due
        rw [delta] at keyframe
        cases keyframe
      refine ⟨before, ?_, (following.delta undue).2⟩
      cases answer : before.reply with
      | accepted =>
        have kept : [before].filter (fun other => other.reply = .accepted) = [before] := by
          simp [answer]
        rw [concat_eq_append, filter_append, kept, getLast?_concat]
      | rejected error => exact absurd (.inl (following.rejected error answer)) undue
      | pending => exact absurd (recovered adjacent answer) undue

end

end Steps

end Handover

end ReplicationPublisher

section Publication

variable {σ C Sn π : Type}

inductive PublisherStep (publisher : SnapshotPublisher π Sn) : Option π → Option π → Prop
  | publish (snapshot : Snapshot Sn) (state : π) :
      PublisherStep publisher (some state) (some (publisher.publish snapshot state).2)
  | force (state : π) :
      PublisherStep publisher (some state) (some (publisher.forceKeyframe state))

def Published (env : Environment σ C Sn π) (origin : Option π) (room : Room σ C Sn π) : Prop :=
  Relation.ReflTransGen (PublisherStep env.publisher) origin room.publisher

theorem streaming_published {env : Environment σ C Sn (ReplicationPublisher Sn)}
    (publishes : env.publisher = ReplicationPublisher.snapshotPublisher env.sha256)
    {interval : Nat} {origin : ReplicationPublisher Sn} (initial : origin.Streaming interval)
    {room : Room σ C Sn (ReplicationPublisher Sn)} (published : Published env (some origin) room) :
    ∃ publisher, room.publisher = some publisher ∧ publisher.Streaming interval := by
  unfold Published at published
  rw [publishes] at published
  generalize room.publisher = current at published ⊢
  induction published with
  | refl => exact ⟨origin, rfl, initial⟩
  | tail _ step ih =>
    obtain ⟨publisher, rfl, streaming⟩ := ih
    cases step with
    | publish snapshot => exact ⟨_, rfl, streaming.publish snapshot⟩
    | force => exact ⟨_, rfl, streaming.forceKeyframe⟩

end Publication

namespace Room

open Fallible

section Publication

variable {σ C Sn π : Type} (env : Environment σ C Sn π) {origin : Option π}

theorem publisher_observe (room : Room σ C Sn π) (call : Observation C Sn) :
    (room.observe call).publisher = room.publisher :=
  congrArg Prod.fst (control_observe room call)

theorem published_publish {room : Room σ C Sn π} (held : Published env origin room)
    (executed : Executed Sn) : Published env origin (room.publish env executed) := by
  unfold publish
  split
  · exact held
  · rename_i state current
    have stepped (snapshot : Snapshot Sn) : Relation.ReflTransGen (PublisherStep env.publisher)
        origin (some (env.publisher.publish snapshot state).2) := by
      unfold Published at held
      rw [current] at held
      exact held.tail (.publish snapshot state)
    dsimp only
    split
    all_goals
      rename_i answer
      have reached := stepped
        { roomId := room.id, tick := executed.tick.number, elapsed := executed.tick.elapsed,
          state := executed.snapshot, stateHash := executed.hash }
      rw [answer] at reached
      exact reached

theorem published_drainPhase : Preserves (Published env origin) (drainPhase env) :=
  @preserves_drainPhase _ _ _ _ env
    (fun control => Relation.ReflTransGen (PublisherStep env.publisher) origin control.1)

theorem published_simulatePhase (late : Option Nat) :
    Preserves (Published env origin) (simulatePhase env late) := by
  refine @preserves_simulatePhase _ _ _ _ env
    (fun control => Relation.ReflTransGen (PublisherStep env.publisher) origin control.1) ?_ late
  intro publisher _ held
  cases publisher with
  | none => exact held
  | some state => exact held.tail (.force state)

end Publication

end Room

namespace Shared

section Publication

variable {σ C Sn π : Type} {env : Environment σ C Sn π} {origin : Option π}

theorem published_step {shared next : Shared σ C Sn π} {action : Action C}
    (held : Published env origin shared.room) (stepped : shared.step env action = some next) :
    Published env origin next.room := by
  cases action with
  | validate =>
    simp only [step] at stepped
    split at stepped
    all_goals
      cases stepped
      exact held
  | send =>
    simp only [step, sendAt] at stepped
    split at stepped
    · cases stepped
    · split_ifs at stepped
      cases stepped
      exact held
  | refuse =>
    simp only [step, refuseAt] at stepped
    split_ifs at stepped
    cases stepped
    exact held
  | cancel =>
    cases stepped
    exact held
  | drain =>
    obtain ⟨_, rfl⟩ := step_advance stepped
    have reached := Room.published_drainPhase env shared.room held
    unfold drainStep
    split
    all_goals
      rename_i outcome
      rw [outcome] at reached
      exact reached
  | simulate =>
    obtain ⟨late, _, rfl⟩ := step_advance stepped
    have reached := Room.published_simulatePhase env late shared.room held
    unfold simulateStep
    split
    all_goals
      rename_i outcome
      rw [outcome] at reached
      exact reached
  | storeCurrent =>
    obtain ⟨executed, _, rfl⟩ := step_advance stepped
    unfold Room.storeCurrent
    dsimp only
    split
    · refine Room.published_publish env ?_ executed
      rw [Published, Room.publisher_observe]
      exact held
    · exact held
  | storeFinalized =>
    obtain ⟨number, _, rfl⟩ := step_advance stepped
    unfold Room.storeFinalized
    dsimp only
    split <;> exact held

theorem published_run {actions : List (Action C)} {shared later : Shared σ C Sn π}
    (held : Published env origin shared.room) (ran : run env actions shared = some later) :
    Published env origin later.room := by
  induction actions generalizing shared with
  | nil =>
    cases ran
    exact held
  | cons _ _ ih =>
    obtain ⟨next, stepped, rest⟩ := Option.bind_eq_some_iff.mp ran
    exact ih (published_step held stepped) rest

end Publication

section Results

variable {σ C Sn : Type}

/-- However publications end and submissions interleave, every delta is based on
the last accepted packet exactly if a keyframe is due after every interruption. -/
theorem deltas_based_iff (env : Environment σ C Sn (ReplicationPublisher Sn))
    (publishes : env.publisher = ReplicationPublisher.snapshotPublisher env.sha256)
    (room : Room σ C Sn (ReplicationPublisher Sn)) (name : String) (config : ReplicationConfig)
    (stream : ReplicationStream) (created : ReplicationStream.new name config = .ok stream)
    (sink : List Packet → SinkReply) (encoder : Sn → Except Error (List UInt8))
    (actions : List (Action C)) (shared : Shared σ C Sn (ReplicationPublisher Sn))
    (ran : run env actions (start (room.withPublisher (.new stream sink encoder))) = some shared) :
    ∃ publisher, shared.room.publisher = some publisher ∧
      (ReplicationPublisher.Based publisher.handed ↔
        ReplicationPublisher.Recovered config.keyframeInterval publisher.handed) := by
  have initially : Published env (some (.new stream sink encoder))
      (start (room.withPublisher (.new stream sink encoder))).room := Relation.ReflTransGen.refl
  have fresh : ReplicationPublisher.Streaming config.keyframeInterval (.new stream sink encoder) := by
    unfold ReplicationStream.new at created
    split_ifs at created
    cases created
    exact ⟨rfl, .nil, nofun, rfl, nofun⟩
  obtain ⟨publisher, current, streaming⟩ := streaming_published publishes fresh
    (published_run initially ran)
  exact ⟨publisher, current, streaming.based_iff⟩

def blankDigest (value : List UInt8) : Vector UInt8 32 :=
  if value = List.replicate 8 0 then
    #v[175, 85, 112, 245, 161, 129, 11, 122, 247, 140, 175, 75, 199, 10, 102, 15,
       13, 245, 30, 66, 186, 249, 29, 77, 229, 178, 50, 141, 224, 232, 61, 252]
  else counterDigest value

def publishing : Environment Nat Nat Nat (ReplicationPublisher Nat) where
  simulation := counterSimulation (fun _ => false)
  publisher := ReplicationPublisher.snapshotPublisher blankDigest
  sha256 := blankDigest

def everyTick : RoomConfig := { RoomConfig.default with snapshotInterval := 1 }

def everyTickRoom : Room Nat Nat Nat (ReplicationPublisher Nat) := .fresh "counter" everyTick 0 none

def keyframesEvery (interval : Nat) : ReplicationStream :=
  { room := "counter"
    config := { ReplicationConfig.default with keyframeInterval := interval }
    previous := none
    force := true }

def secondPending (packets : List Packet) : SinkReply :=
  if packets.length = 2 then .pending else .accepted

def interruptedRun (interval count : Nat) : Option (Shared Nat Nat Nat (ReplicationPublisher Nat)) :=
  run publishing (List.replicate count (advanceWith [])).flatten
    (start (everyTickRoom.withPublisher
      (.new (keyframesEvery interval) secondPending (fun _ => .ok (List.replicate 8 0)))))

def outline (entry : Handed) : Nat × PacketKind × Nat × SinkReply :=
  (entry.packet.tick, entry.packet.kind, entry.packet.baseTick, entry.reply)

theorem deltas_based_iff_periodic :
    ∃ shared publisher, interruptedRun 3 4 = some shared ∧
      shared.room.publisher = some publisher ∧
      publisher.handed.map outline =
        [(1, .keyframe, 0, .accepted), (2, .delta, 1, .pending), (3, .keyframe, 0, .accepted),
         (4, .delta, 3, .accepted)] ∧
      ReplicationPublisher.Based publisher.handed := by
  have evaluated : ((interruptedRun 3 4).bind (fun shared => shared.room.publisher)).map
      (fun publisher => publisher.handed.map outline) =
        some [(1, .keyframe, 0, .accepted), (2, .delta, 1, .pending), (3, .keyframe, 0, .accepted),
              (4, .delta, 3, .accepted)] := by
    decide +kernel
  obtain ⟨publisher, found, outlined⟩ := Option.map_eq_some_iff.mp evaluated
  obtain ⟨shared, ran, current⟩ := Option.bind_eq_some_iff.mp found
  obtain ⟨last, same, based_iff⟩ := deltas_based_iff publishing rfl everyTickRoom "counter"
    { ReplicationConfig.default with keyframeInterval := 3 } (keyframesEvery 3) (by decide)
    secondPending (fun _ => .ok (replicate 8 0)) _ shared ran
  rw [current, Option.some.injEq] at same
  subst last
  refine ⟨shared, publisher, ran, current, outlined, based_iff.mpr ?_⟩
  have periodic : (publisher.handed.map outline).IsChain
      (fun before after => before.2.2.2 = .pending → after.1 % 3 = 0) := by
    rw [outlined]
    decide
  rw [isChain_map] at periodic
  exact periodic.imp (fun _ _ due interrupted => .inr (.inl (due interrupted)))

theorem interrupted_publication_fails :
    Room.withObserver "counter" everyTick 0 none = .ok everyTickRoom ∧
      ReplicationStream.new "counter" .default = .ok (keyframesEvery 60) ∧
      ∃ shared publisher, interruptedRun 60 3 = some shared ∧
        shared.room.publisher = some publisher ∧
        publisher.handed.map outline =
          [(1, .keyframe, 0, .accepted), (2, .delta, 1, .pending), (3, .delta, 2, .accepted)] ∧
        ¬ReplicationPublisher.Based publisher.handed := by
  have evaluated : ((interruptedRun 60 3).bind (fun shared => shared.room.publisher)).map
      (fun publisher => publisher.handed.map outline) =
        some [(1, .keyframe, 0, .accepted), (2, .delta, 1, .pending), (3, .delta, 2, .accepted)] := by
    decide +kernel
  obtain ⟨publisher, found, outlined⟩ := Option.map_eq_some_iff.mp evaluated
  obtain ⟨shared, ran, current⟩ := Option.bind_eq_some_iff.mp found
  refine ⟨rfl, by decide, shared, publisher, ran, current, outlined, fun based => ?_⟩
  simp only [map_eq_cons_iff, map_eq_nil_iff, outline, Prod.mk.injEq] at outlined
  obtain ⟨keyframe, _, split, accepted, interrupted, _, rfl, pending, delta, _, rfl, based_two, rfl⟩ :=
    outlined
  obtain ⟨published, last, base⟩ := based [keyframe, interrupted] delta [] split based_two.2.1
  have chosen : [keyframe, interrupted].filter (fun other => other.reply = .accepted) =
      [keyframe] := by
    simp [accepted.2.2.2, pending.2.2.2]
  rw [chosen, getLast?_singleton, Option.some.injEq] at last
  subst published
  rw [based_two.2.2.1, accepted.1] at base
  cases base

end Results

end Shared

end Elura.Realtime
