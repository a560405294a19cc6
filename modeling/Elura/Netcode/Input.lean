import Elura.Netcode.SequenceWindow

/-!
The client input stream of `elura-netcode`: a sender that repeats the newest inputs not yet
acknowledged in every packet, and a receiver that takes every input at most once.
-/

namespace Elura.Netcode

open Fallible List

structure InputSenderConfig where
  historyCapacity : Nat
  redundancy : Nat
  deriving DecidableEq, Repr

def InputSenderConfig.default : InputSenderConfig where
  historyCapacity := 64
  redundancy := 3

def InputSenderConfig.validate (config : InputSenderConfig) : Except NetcodeError Unit :=
  if config.historyCapacity = 0 then
    .error (.invalidConfig "input history capacity must be positive")
  else if config.redundancy = 0 ∨ config.historyCapacity < config.redundancy then
    .error (.invalidConfig "input redundancy must be within history capacity")
  else .ok ()

structure InputReceiverConfig where
  maxInputsPerPacket : Nat
  reorderWindow : Nat
  maxPastTicks : Nat
  maxFutureTicks : Nat
  deriving DecidableEq, Repr

def InputReceiverConfig.default : InputReceiverConfig where
  maxInputsPerPacket := 16
  reorderWindow := 256
  maxPastTicks := 12
  maxFutureTicks := 120

def InputReceiverConfig.validate (config : InputReceiverConfig) : Except NetcodeError Unit :=
  if config.maxInputsPerPacket = 0 then
    .error (.invalidConfig "maximum inputs per packet must be positive")
  else if config.reorderWindow = 0 then
    .error (.invalidConfig "input reorder window must be positive")
  else if config.maxFutureTicks = 0 then
    .error (.invalidConfig "maximum future ticks must be positive")
  else .ok ()

structure InputFrame (T : Type) where
  sequence : Nat
  targetTick : Nat
  input : T
  deriving DecidableEq, Repr

structure InputPacket (T : Type) where
  clientTick : Nat
  acknowledgedServerTick : Nat
  inputs : List (InputFrame T)
  deriving DecidableEq, Repr

structure InputAck where
  serverTick : Nat
  acknowledgedSequence : Nat
  deriving DecidableEq, Repr

structure InputSender (T : Type) where
  config : InputSenderConfig
  nextSequence : Nat
  acknowledgedSequence : Nat
  acknowledgedServerTick : Nat
  history : List (InputFrame T)
  deriving DecidableEq, Repr

structure InputReceiveReport (T : Type) where
  accepted : List (InputFrame T)
  duplicates : Nat
  clientTick : Nat
  acknowledgedServerTick : Nat
  acknowledgement : InputAck
  deriving DecidableEq, Repr

structure InputReceiver where
  config : InputReceiverConfig
  sequences : SequenceWindow

structure Reception (T : Type) where
  sequences : SequenceWindow
  accepted : List (InputFrame T)
  duplicates : Nat

section Definitions

variable {T : Type}

namespace InputSender

def withNextSequence (config : InputSenderConfig) (nextSequence : Nat) :
    Except NetcodeError (InputSender T) := do
  config.validate
  if nextSequence = 0 then
    throw (.invalidConfig "next input sequence must be positive")
  return {
    config
    nextSequence
    acknowledgedSequence := nextSequence - 1
    acknowledgedServerTick := 0
    history := [] }

def new (config : InputSenderConfig) : Except NetcodeError (InputSender T) :=
  withNextSequence config 1

def record (targetTick : Nat) (input : T) : Fallible (InputSender T) NetcodeError Nat := do
  let sender ← get
  if targetTick = 0 then
    throw (.invalidInput "input target Tick must be positive")
  else if sender.config.historyCapacity ≤ sender.history.length then
    throw .inputHistoryFull
  else
    match checkedAdd sender.nextSequence 1 with
    | none => throw .sequenceExhausted
    | some nextSequence =>
      let frame : InputFrame T := { sequence := sender.nextSequence, targetTick, input }
      set { sender with nextSequence, history := sender.history ++ [frame] }
      return sender.nextSequence

def acknowledge (acknowledgement : InputAck) : Fallible (InputSender T) NetcodeError Nat := do
  let sender ← get
  if sender.nextSequence - 1 < acknowledgement.acknowledgedSequence then
    throw .invalidAcknowledgement
  else
    let acknowledgedServerTick :=
      max sender.acknowledgedServerTick acknowledgement.serverTick
    if acknowledgement.acknowledgedSequence ≤ sender.acknowledgedSequence then
      set { sender with acknowledgedServerTick }
      return 0
    else
      let history := sender.history.dropWhile
        (fun frame => frame.sequence ≤ acknowledgement.acknowledgedSequence)
      set { sender with
        acknowledgedServerTick
        acknowledgedSequence := acknowledgement.acknowledgedSequence
        history }
      return sender.history.length - history.length

def packet (sender : InputSender T) (clientTick : Nat) : InputPacket T where
  clientTick
  acknowledgedServerTick := sender.acknowledgedServerTick
  inputs := sender.history.drop (sender.history.length - sender.config.redundancy)

end InputSender

namespace InputReceiver

def withAcknowledged (config : InputReceiverConfig) (acknowledged : Nat) :
    Except NetcodeError InputReceiver := do
  config.validate
  let sequences ← SequenceWindow.withAcknowledged config.reorderWindow acknowledged
  return { config, sequences }

def new (config : InputReceiverConfig) : Except NetcodeError InputReceiver :=
  withAcknowledged config 0

def earliest (receiver : InputReceiver) (currentServerTick : Nat) : Nat :=
  currentServerTick - receiver.config.maxPastTicks

def latest (receiver : InputReceiver) (currentServerTick : Nat) : Nat :=
  saturatingAdd currentServerTick receiver.config.maxFutureTicks

def observeFrames (earliest latest : Nat) :
    List (InputFrame T) → Reception T → Except NetcodeError (Reception T)
  | [], seen => .ok seen
  | frame :: rest, seen =>
    match (SequenceWindow.observe frame.sequence).call seen.sequences with
    | (.error error, _) => .error error
    | (.ok .duplicate, sequences) =>
      observeFrames earliest latest rest
        { seen with sequences, duplicates := seen.duplicates + 1 }
    | (.ok .accepted, sequences) =>
      if frame.targetTick = 0 ∨ frame.targetTick < earliest ∨ latest < frame.targetTick then
        .error (.invalidInput "input target Tick is outside the receive window")
      else
        observeFrames earliest latest rest
          { seen with sequences, accepted := seen.accepted ++ [frame] }

def receive (currentServerTick : Nat) (packet : InputPacket T) :
    Fallible InputReceiver NetcodeError (InputReceiveReport T) := do
  let receiver ← get
  if receiver.config.maxInputsPerPacket < packet.inputs.length then
    throw (.invalidInput "packet contains too many input frames")
  if currentServerTick < packet.acknowledgedServerTick then
    throw (.invalidInput "client acknowledged a future server Tick")
  let inputs := packet.inputs.insertionSort (fun left right => left.sequence ≤ right.sequence)
  let seen ← liftM (observeFrames (receiver.earliest currentServerTick)
    (receiver.latest currentServerTick) inputs
    { sequences := receiver.sequences, accepted := [], duplicates := 0 })
  set { receiver with sequences := seen.sequences }
  return {
    accepted := seen.accepted
    duplicates := seen.duplicates
    clientTick := packet.clientTick
    acknowledgedServerTick := packet.acknowledgedServerTick
    acknowledgement := {
      serverTick := currentServerTick
      acknowledgedSequence := seen.sequences.acknowledged } }

def receiveAll : List (Nat × InputPacket T) → InputReceiver →
    List (InputFrame T) × InputReceiver
  | [], receiver => ([], receiver)
  | (currentServerTick, packet) :: calls, receiver =>
    match (receive currentServerTick packet).call receiver with
    | (.error _, after) => receiveAll calls after
    | (.ok report, after) =>
      let (later, last) := receiveAll calls after
      (report.accepted ++ later, last)

end InputReceiver

end Definitions

section Sender

variable {T : Type}

/-- An acknowledgement of an input that was never recorded is refused, any other
moves both marks forward and shortens the history. -/
theorem acknowledge_cases (sender : InputSender T) (acknowledgement : InputAck) :
    (sender.nextSequence - 1 < acknowledgement.acknowledgedSequence ∧
        ((InputSender.acknowledge acknowledgement).call sender).2 = sender) ∨
      (acknowledgement.acknowledgedSequence ≤ sender.nextSequence - 1 ∧
        ((InputSender.acknowledge acknowledgement).call sender).2 =
          { sender with
            acknowledgedServerTick :=
              max sender.acknowledgedServerTick acknowledgement.serverTick
            acknowledgedSequence :=
              max sender.acknowledgedSequence acknowledgement.acknowledgedSequence
            history :=
              if acknowledgement.acknowledgedSequence ≤ sender.acknowledgedSequence then
                sender.history
              else sender.history.dropWhile
                (fun frame => frame.sequence ≤ acknowledgement.acknowledgedSequence) }) := by
  simp only [InputSender.acknowledge, call_bind, call_get,
    call_ite, call_throw, call_set, call_pure]
  by_cases beyond : sender.nextSequence - 1 < acknowledgement.acknowledgedSequence
  · exact .inl ⟨beyond, by simp only [if_pos beyond]⟩
  · refine .inr ⟨Nat.le_of_not_lt beyond, ?_⟩
    by_cases stale : acknowledgement.acknowledgedSequence ≤ sender.acknowledgedSequence
    · simp only [if_neg beyond, if_pos stale, max_eq_left stale]
    · simp only [if_neg beyond, if_neg stale, max_eq_right (Nat.le_of_not_le stale)]

end Sender

section Acceptance

variable {T : Type}
variable {receiver : InputReceiver} {start size currentServerTick : Nat} {window : SequenceWindow}
  {accepted earlier : List (InputFrame T)} {packet : InputPacket T}

structure Exact (start size : Nat) (window : SequenceWindow) (accepted : List (InputFrame T)) :
    Prop where
  wellFormed : window.WellFormed
  reaches : window.Reaches
  windowSize : window.reorderWindow = size
  distinct : (accepted.map (·.sequence)).Nodup
  above : ∀ frame ∈ accepted, start < frame.sequence
  received : ∀ number, window.Received number ↔
    number ≤ start ∨ ∃ frame ∈ accepted, frame.sequence = number

theorem exact_withAcknowledged {config : InputReceiverConfig} {acknowledged : Nat}
    (created : InputReceiver.withAcknowledged config acknowledged = .ok receiver)
    (bounded : acknowledged ≤ u64Max) :
    receiver.config = config ∧ receiver.sequences.acknowledged = acknowledged ∧
      config.validate = .ok () ∧
      Exact acknowledged config.reorderWindow receiver.sequences ([] : List (InputFrame T)) := by
  unfold InputReceiver.withAcknowledged at created
  cases checked : config.validate with
  | error => simp [checked, bind, Except.bind] at created
  | ok =>
    cases made : SequenceWindow.withAcknowledged config.reorderWindow acknowledged with
    | error => simp [checked, made, bind, Except.bind] at created
    | ok =>
      simp only [checked, made, bind, Except.bind, pure, Except.pure, Except.ok.injEq] at created
      subst receiver
      obtain ⟨wellFormed, size, start, empty⟩ :=
        SequenceWindow.withAcknowledged_wellFormed made bounded
      refine ⟨rfl, start, rfl, wellFormed, ?_, size, nodup_nil, by simp, ?_⟩
      · intro sequence member
        simp [empty] at member
      · intro number
        simp [SequenceWindow.Received, start, empty]

section

variable (exact_ : Exact start size window accepted)
include exact_

theorem Exact.accept {after : SequenceWindow}
    {frame : InputFrame T} (unknown : ¬window.Received frame.sequence)
    (wellFormed : after.WellFormed) (reaches : after.Reaches)
    (sameSize : after.reorderWindow = window.reorderWindow)
    (received : ∀ number, after.Received number ↔
      window.Received number ∨ number = frame.sequence) :
    Exact start size after (accepted ++ [frame]) := by
  refine ⟨wellFormed, reaches, sameSize.trans exact_.windowSize, ?_, ?_, ?_⟩
  · rw [map_append, map_singleton, nodup_append]
    refine ⟨exact_.distinct, nodup_singleton _, ?_⟩
    rintro number old _ new rfl
    rw [mem_singleton] at new
    obtain ⟨earlier, member, same⟩ := mem_map.mp old
    exact unknown ((exact_.received _).mpr (.inr ⟨earlier, member, same.trans new⟩))
  · refine forall_mem_append.mpr ⟨exact_.above, forall_mem_singleton.mpr ?_⟩
    exact Nat.lt_of_not_le (fun low => unknown ((exact_.received _).mpr (.inl low)))
  · intro number
    rw [received number, exact_.received number, or_assoc, eq_comm]
    simp

theorem Exact.received_union :
    Set.Icc 1 start ∪ {number | ∃ frame ∈ accepted, frame.sequence = number} =
      Set.Icc 1 window.acknowledged ∪ {number | number ∈ window.pending} := by
  ext number
  have known := exact_.received number
  simp only [SequenceWindow.Received] at known
  simp only [Set.mem_union]
  constructor
  · rintro (⟨positive, low⟩ | ⟨frame, member, same⟩)
    · exact (known.mpr (.inl low)).imp_left (fun below => ⟨positive, below⟩)
    · have positive := exact_.above frame member
      exact (known.mpr (.inr ⟨frame, member, same⟩)).imp_left (fun below => ⟨by omega, below⟩)
  · rintro (⟨positive, below⟩ | pending)
    · exact (known.mp (.inl below)).imp_left (fun low => ⟨positive, low⟩)
    · have positive := exact_.wellFormed.gap number pending
      exact (known.mp (.inr pending)).imp_left (fun low => ⟨by omega, low⟩)

theorem Exact.acknowledged_greatest :
    IsGreatest {last | Set.Icc 1 last ⊆
      Set.Icc 1 start ∪ {number | ∃ frame ∈ accepted, frame.sequence = number}}
      window.acknowledged := by
  rw [exact_.received_union]
  refine ⟨Set.subset_union_left, ?_⟩
  intro last complete
  by_contra beyond
  rcases complete ⟨by omega, Nat.lt_of_not_le beyond⟩ with ⟨_, below⟩ | pending
  · omega
  · have gap := exact_.wellFormed.gap _ pending
    omega

end

theorem observeFrames_exact {earliest latest : Nat} {frames : List (InputFrame T)}
    {seen after : Reception T} (exact_ : Exact start size seen.sequences (earlier ++ seen.accepted))
    (observed : InputReceiver.observeFrames earliest latest frames seen = .ok after) :
    Exact start size after.sequences (earlier ++ after.accepted) ∧
      ∀ frame ∈ after.accepted, frame ∈ seen.accepted ∨ frame ∈ frames := by
  induction frames generalizing seen with
  | nil =>
    simp only [InputReceiver.observeFrames, Except.ok.injEq] at observed
    subst after
    exact ⟨exact_, fun frame member => .inl member⟩
  | cons frame _ ih =>
    rcases SequenceWindow.observe_cases seen.sequences exact_.wellFormed exact_.reaches
        frame.sequence with
      ⟨error, refused⟩ | ⟨_, known⟩ | ⟨next, fresh, _, unknown, wellFormed, reaches,
        sameSize, received⟩
    · simp [InputReceiver.observeFrames, refused] at observed
    · simp only [InputReceiver.observeFrames, known] at observed
      have skipped : Exact start size
          ({ seen with duplicates := seen.duplicates + 1 } : Reception T).sequences
          (earlier ++ seen.accepted) := exact_
      obtain ⟨after_exact, origin⟩ := ih skipped observed
      exact ⟨after_exact, fun other member =>
        (origin other member).imp_right (mem_cons_of_mem _)⟩
    · simp only [InputReceiver.observeFrames, fresh] at observed
      split at observed
      · cases observed
      · have accepted : Exact start size ({ seen with
            sequences := next, accepted := seen.accepted ++ [frame] } : Reception T).sequences
            (earlier ++ (seen.accepted ++ [frame])) := by
          rw [← append_assoc]
          exact exact_.accept unknown wellFormed reaches sameSize received
        obtain ⟨after_exact, origin⟩ := ih accepted observed
        refine ⟨after_exact, fun other member => ?_⟩
        rcases origin other member with old | later
        · rcases mem_append.mp old with old | new
          · exact .inl old
          · rw [mem_singleton] at new
            exact .inr (new ▸ mem_cons_self)
        · exact .inr (mem_cons_of_mem _ later)

theorem observeFrames_ok {earliest latest : Nat} {frames : List (InputFrame T)}
    {seen : Reception T} (wellFormed : seen.sequences.WellFormed)
    (inside : ∀ frame ∈ frames, 0 < frame.sequence ∧ frame.sequence ≤ u64Max ∧
      frame.sequence ≤ seen.sequences.acknowledged + seen.sequences.reorderWindow)
    (timely : ∀ frame ∈ frames, 0 < frame.targetTick ∧ earliest ≤ frame.targetTick ∧
      frame.targetTick ≤ latest) :
    ∃ after, InputReceiver.observeFrames earliest latest frames seen = .ok after ∧
      after.sequences.WellFormed ∧
      seen.sequences.acknowledged ≤ after.sequences.acknowledged ∧
      after.sequences.reorderWindow = seen.sequences.reorderWindow ∧
      ∀ number, after.sequences.Received number ↔
        seen.sequences.Received number ∨ ∃ frame ∈ frames, frame.sequence = number := by
  induction frames generalizing seen with
  | nil => exact ⟨seen, rfl, wellFormed, le_rfl, rfl, by simp⟩
  | cons frame rest ih =>
    obtain ⟨positive, bounded, near⟩ := inside frame mem_cons_self
    have timelyRest := fun other member => timely other (mem_cons_of_mem _ member)
    obtain ⟨next, nextWellFormed, sameSize, grows, received, outcome⟩ :=
      SequenceWindow.observe_spec seen.sequences wellFormed frame.sequence positive
        (le_saturatingAdd bounded near)
    have insideRest : ∀ other ∈ rest, 0 < other.sequence ∧ other.sequence ≤ u64Max ∧
        other.sequence ≤ next.acknowledged + next.reorderWindow := by
      intro other member
      obtain ⟨otherPositive, otherBounded, otherNear⟩ :=
        inside other (mem_cons_of_mem _ member)
      exact ⟨otherPositive, otherBounded, by omega⟩
    have all : ∀ after : SequenceWindow,
        (∀ number, after.Received number ↔
          next.Received number ∨ ∃ other ∈ rest, other.sequence = number) →
        ∀ number, after.Received number ↔ seen.sequences.Received number ∨
          ∃ other ∈ frame :: rest, other.sequence = number := by
      intro after complete number
      rw [complete number, received number, or_assoc, @eq_comm _ number]
      simp
    rcases outcome with ⟨_, unchanged, observed⟩ | ⟨_, observed⟩
    · subst next
      obtain ⟨after, computed, facts⟩ := ih
        (show ({ seen with duplicates := seen.duplicates + 1 } :
          Reception T).sequences.WellFormed from wellFormed) insideRest timelyRest
      refine ⟨after, ?_, facts.1, facts.2.1, facts.2.2.1, all _ facts.2.2.2⟩
      simpa only [InputReceiver.observeFrames, observed] using computed
    · have accepted : ¬(frame.targetTick = 0 ∨ frame.targetTick < earliest ∨
          latest < frame.targetTick) := by
        have bounds := timely frame mem_cons_self
        omega
      obtain ⟨after, computed, facts⟩ := ih
        (show ({ seen with sequences := next, accepted := seen.accepted ++ [frame] } :
          Reception T).sequences.WellFormed from nextWellFormed) insideRest timelyRest
      refine ⟨after, ?_, facts.1, le_trans grows facts.2.1, facts.2.2.1.trans sameSize,
        all _ facts.2.2.2⟩
      simpa only [InputReceiver.observeFrames, observed, if_neg accepted] using computed

theorem receive_cases (receiver : InputReceiver) (currentServerTick : Nat)
    (packet : InputPacket T) :
    (∃ error, (InputReceiver.receive currentServerTick packet).call receiver =
        (.error error, receiver)) ∨
      ∃ seen report, InputReceiver.observeFrames (receiver.earliest currentServerTick)
          (receiver.latest currentServerTick)
          (packet.inputs.insertionSort (fun left right => left.sequence ≤ right.sequence))
          { sequences := receiver.sequences, accepted := [], duplicates := 0 } = .ok seen ∧
        (InputReceiver.receive currentServerTick packet).call receiver =
          (.ok report, { receiver with sequences := seen.sequences }) ∧
        report.accepted = seen.accepted ∧
        report.acknowledgement = { serverTick := currentServerTick
                                   acknowledgedSequence := seen.sequences.acknowledged } := by
  simp only [InputReceiver.receive, call_bind, call_get, call_ite, call_throw]
  by_cases long : receiver.config.maxInputsPerPacket < packet.inputs.length
  · exact .inl ⟨.invalidInput "packet contains too many input frames", by simp only [if_pos long]⟩
  · by_cases future : currentServerTick < packet.acknowledgedServerTick
    · exact .inl ⟨.invalidInput "client acknowledged a future server Tick", by
        simp only [if_neg long, if_pos future]⟩
    · simp only [if_neg long, if_neg future]
      cases InputReceiver.observeFrames (receiver.earliest currentServerTick) _ _ _ with
      | error error => exact .inl ⟨error, rfl⟩
      | ok seen => exact .inr ⟨seen, _, rfl, rfl, rfl, rfl⟩

theorem receive_failed {after : InputReceiver} {error : NetcodeError}
    (failed : (InputReceiver.receive currentServerTick packet).call receiver =
      (.error error, after)) : after = receiver := by
  rcases receive_cases receiver currentServerTick packet with ⟨_, refused⟩ | ⟨_, _, _, called, _⟩
  · rw [refused] at failed
    exact (Prod.mk.inj failed).2.symm
  · rw [called] at failed
    cases failed

theorem receive_exact {after : InputReceiver} {report : InputReceiveReport T}
    (exact_ : Exact start size receiver.sequences earlier)
    (received : (InputReceiver.receive currentServerTick packet).call receiver =
      (.ok report, after)) :
    Exact start size after.sequences (earlier ++ report.accepted) ∧
      ∀ frame ∈ report.accepted, frame ∈ packet.inputs := by
  rcases receive_cases receiver currentServerTick packet with
    ⟨error, failed⟩ | ⟨seen, stored, observed, called, accepted, _⟩
  · rw [failed] at received
    cases received
  · rw [called] at received
    simp only [Prod.mk.injEq, Except.ok.injEq] at received
    obtain ⟨rfl, rfl⟩ := received
    have initial : Exact start size
        ({ sequences := receiver.sequences, accepted := [], duplicates := 0 } :
          Reception T).sequences (earlier ++ []) := by
      rw [append_nil]
      exact exact_
    obtain ⟨final, origin⟩ := observeFrames_exact initial observed
    rw [accepted]
    refine ⟨final, fun frame member => ?_⟩
    rcases origin frame member with old | sent
    · cases old
    · exact (perm_insertionSort _ _).mem_iff.mp sent

/-- Any run of calls, whoever made the packets. -/
theorem receiveAll_exact (calls : List (Nat × InputPacket T))
    (exact_ : Exact start size receiver.sequences earlier) :
    Exact start size (InputReceiver.receiveAll calls receiver).2.sequences
        (earlier ++ (InputReceiver.receiveAll calls receiver).1) ∧
      ∀ frame ∈ (InputReceiver.receiveAll calls receiver).1,
        ∃ call ∈ calls, frame ∈ call.2.inputs := by
  induction calls generalizing receiver earlier with
  | nil =>
    simp only [InputReceiver.receiveAll, append_nil]
    exact ⟨exact_, nofun⟩
  | cons call rest ih =>
    obtain ⟨currentServerTick, packet⟩ := call
    have later : ∀ frame : InputFrame T, (∃ call ∈ rest, frame ∈ call.2.inputs) →
        ∃ call ∈ (currentServerTick, packet) :: rest, frame ∈ call.2.inputs :=
      fun frame ⟨call, member, sent⟩ => ⟨call, mem_cons_of_mem _ member, sent⟩
    rcases outcome : (InputReceiver.receive currentServerTick packet).call receiver with
      ⟨result, after⟩
    cases result with
    | error =>
      obtain rfl := receive_failed outcome
      simp only [InputReceiver.receiveAll, outcome]
      obtain ⟨final, origin⟩ := ih exact_
      exact ⟨final, fun frame member => later frame (origin frame member)⟩
    | ok =>
      obtain ⟨next, sent⟩ := receive_exact exact_ outcome
      obtain ⟨final, origin⟩ := ih next
      simp only [InputReceiver.receiveAll, outcome]
      rw [← append_assoc]
      refine ⟨final, fun frame member => ?_⟩
      rcases mem_append.mp member with now | afterwards
      · exact ⟨_, mem_cons_self, sent frame now⟩
      · exact later frame (origin frame afterwards)

end Acceptance

end Elura.Netcode
