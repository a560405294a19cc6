import Elura.Basis.Numbered
import Elura.Netcode.Input

/-!
One client's input stream over a network that may lose, duplicate, delay and reorder. An input
that has left the repeated part of the history and whose packets were all lost is never sent
again.
-/

namespace Elura.Netcode

open Fallible List

structure InputSending (T : Type) where
  sender : InputSender T
  issued : List (InputFrame T)
  packets : List (InputPacket T)

namespace InputSending

section Steps

variable {T : Type}

def start (sender : InputSender T) : InputSending T :=
  { sender, issued := [], packets := [] }

def record (targetTick : Nat) (input : T) (sending : InputSending T) : InputSending T :=
  match (InputSender.record targetTick input).call sending.sender with
  | (.error _, sender) => { sending with sender }
  | (.ok sequence, sender) =>
    { sending with sender, issued := sending.issued ++ [{ sequence, targetTick, input }] }

def acknowledge (acknowledgement : InputAck) (sending : InputSending T) : InputSending T :=
  { sending with
    sender := ((InputSender.acknowledge acknowledgement).call sending.sender).2 }

def packet (clientTick : Nat) (sending : InputSending T) : InputSending T :=
  { sending with packets := sending.packets ++ [sending.sender.packet clientTick] }

inductive Step (sending : InputSending T) : InputSending T → Prop
  | record (targetTick : Nat) (input : T) : Step sending (sending.record targetTick input)
  | acknowledge (acknowledgement : InputAck) : Step sending (sending.acknowledge acknowledgement)
  | packet (clientTick : Nat) : Step sending (sending.packet clientTick)

abbrev Reachable : InputSending T → InputSending T → Prop := Relation.ReflTransGen Step

end Steps

section Invariant

variable {T : Type}
variable {config : InputSenderConfig} {first : Nat} {sending : InputSending T}

structure Invariant (config : InputSenderConfig) (first : Nat) (sending : InputSending T) :
    Prop where
  configured : sending.sender.config = config
  numbered : Numbered (·.sequence) first sending.issued
  next : sending.sender.nextSequence = first + sending.issued.length
  bounded : sending.sender.nextSequence ≤ u64Max
  reached : first ≤ sending.sender.acknowledgedSequence + 1
  behind : sending.sender.acknowledgedSequence < sending.sender.nextSequence
  history : sending.sender.history =
    sending.issued.drop (sending.sender.acknowledgedSequence + 1 - first)
  capacity : sending.sender.history.length ≤ config.historyCapacity
  packets : ∀ packet ∈ sending.packets, ∀ frame ∈ packet.inputs, frame ∈ sending.issued

theorem invariant_start {sender : InputSender T}
    (created : InputSender.withNextSequence config first = .ok sender) (bounded : first ≤ u64Max) :
    config.validate = .ok () ∧ 0 < first ∧ sender.acknowledgedSequence = first - 1 ∧
      sender.acknowledgedServerTick = 0 ∧ Invariant config first (start sender) := by
  unfold InputSender.withNextSequence at created
  cases checked : config.validate with
  | error => simp [checked, bind, Except.bind] at created
  | ok _ =>
    simp only [checked, bind, Except.bind] at created
    split_ifs at created with positive
    have made := Except.ok.inj created
    subst sender
    refine ⟨rfl, by omega, rfl, rfl, rfl, rfl, rfl, bounded, ?_, ?_, ?_, Nat.zero_le _, ?_⟩
    · show first ≤ first - 1 + 1
      omega
    · show first - 1 < first
      omega
    · exact drop_nil.symm
    · intro packet member
      cases member

/-- A refused input changes nothing; an accepted one is numbered and stored. -/
theorem record_cases (sending : InputSending T) (targetTick : Nat) (input : T) :
    sending.record targetTick input = sending ∨
      ∃ frame : InputFrame T, frame.sequence = sending.sender.nextSequence ∧
        sending.sender.history.length < sending.sender.config.historyCapacity ∧
        sending.sender.nextSequence + 1 ≤ u64Max ∧
        sending.record targetTick input =
          { sending with
            sender := { sending.sender with
              nextSequence := sending.sender.nextSequence + 1
              history := sending.sender.history ++ [frame] }
            issued := sending.issued ++ [frame] } := by
  simp only [record, InputSender.record, call_bind, call_get, call_ite, call_throw]
  split_ifs with early full
  · exact .inl rfl
  · exact .inl rfl
  · cases following : checkedAdd sending.sender.nextSequence 1 with
    | none => exact .inl rfl
    | some =>
      obtain ⟨rfl, bounded⟩ := checkedAdd_eq_some following
      exact .inr ⟨_, rfl, Nat.lt_of_not_le full, bounded, rfl⟩

section

variable (invariant : Invariant config first sending)
include invariant

theorem invariant_record (targetTick : Nat) (input : T) :
    Invariant config first (sending.record targetTick input) := by
  rcases sending.record_cases targetTick input with
    unchanged | ⟨frame, sequence, space, bounded, recorded⟩
  · rw [unchanged]
    exact invariant
  · rw [recorded]
    have next := invariant.next
    have behind := invariant.behind
    refine ⟨invariant.configured, invariant.numbered.concat (sequence.trans next), ?_, bounded,
      invariant.reached, Nat.lt_succ_of_lt behind, ?_, ?_, ?_⟩
    · simp only [length_append, length_singleton]
      omega
    · simp only [invariant.history]
      rw [drop_append_of_le_length (by omega)]
    · rw [invariant.configured] at space
      simpa using space
    · intro packet member frame sent
      exact mem_append_left _ (invariant.packets packet member frame sent)

theorem invariant_acknowledge
    (acknowledgement : InputAck) :
    Invariant config first (sending.acknowledge acknowledgement) := by
  unfold acknowledge
  rcases acknowledge_cases sending.sender acknowledgement with
    ⟨_, unchanged⟩ | ⟨known, acknowledged⟩
  · rw [unchanged]
    exact invariant
  · rw [acknowledged]
    have reached := invariant.reached
    have behind := invariant.behind
    have recorded : acknowledgement.acknowledgedSequence < sending.sender.nextSequence := by omega
    refine ⟨invariant.configured, invariant.numbered, invariant.next, invariant.bounded, ?_,
      max_lt behind recorded, ?_, ?_, invariant.packets⟩
    · exact le_trans reached (Nat.succ_le_succ (le_max_left _ _))
    · split
      · rename_i stale
        rw [max_eq_left stale]
        exact invariant.history
      · rename_i fresh
        rw [max_eq_right (Nat.le_of_not_le fresh), invariant.history]
        exact invariant.numbered.dropWhile_le (by omega)
    · split
      · exact invariant.capacity
      · exact le_trans (dropWhile_sublist _).length_le invariant.capacity

theorem invariant_packet (clientTick : Nat) :
    Invariant config first (sending.packet clientTick) := by
  refine { invariant with packets := ?_ }
  refine forall_mem_append.mpr ⟨invariant.packets, forall_mem_singleton.mpr fun frame sent => ?_⟩
  have kept : frame ∈ sending.sender.history := mem_of_mem_drop sent
  rw [invariant.history] at kept
  exact mem_of_mem_drop kept

end

theorem Reachable.invariant {before after : InputSending T} (run : Reachable before after)
    (initial : Invariant config first before) : Invariant config first after := by
  induction run with
  | refl => exact initial
  | tail _ step ih =>
    cases step with
    | record targetTick input => exact invariant_record ih targetTick input
    | acknowledge acknowledgement => exact invariant_acknowledge ih acknowledgement
    | packet clientTick => exact invariant_packet ih clientTick

end Invariant

end InputSending

section ExactlyOnce

variable {T : Type}

/-- Whatever packets arrive in whatever calls, the accepted inputs are exactly
what the acknowledgement and the pending set stand for, each number once. -/
theorem receiveAll_exactlyOnce {config : InputReceiverConfig} {start : Nat}
    {receiver : InputReceiver}
    (created : InputReceiver.withAcknowledged config start = .ok receiver)
    (bounded : start ≤ u64Max) (calls : List (Nat × InputPacket T)) :
    let accepted := (InputReceiver.receiveAll calls receiver).1
    let after := (InputReceiver.receiveAll calls receiver).2
    let received := Set.Icc 1 start ∪ {number | ∃ frame ∈ accepted, frame.sequence = number}
    (accepted.map (·.sequence)).Nodup ∧
      received = Set.Icc 1 after.sequences.acknowledged ∪
        {number | number ∈ after.sequences.pending} ∧
      IsGreatest {last | Set.Icc 1 last ⊆ received} after.sequences.acknowledged ∧
      (∀ number ∈ after.sequences.pending, after.sequences.acknowledged + 1 < number ∧
        number ≤ after.sequences.acknowledged + config.reorderWindow) ∧
      (∀ (currentServerTick : Nat) (packet : InputPacket T) (error : NetcodeError)
        (failed : InputReceiver), (InputReceiver.receive currentServerTick packet).call after =
          (.error error, failed) → failed = after) ∧
      ∀ (senderConfig : InputSenderConfig) (first : Nat) (sender : InputSender T)
        (sending : InputSending T), InputSender.withNextSequence senderConfig first = .ok sender →
        first ≤ u64Max → InputSending.Reachable (InputSending.start sender) sending →
        (∀ call ∈ calls, call.2 ∈ sending.packets) →
        ∀ frame ∈ accepted, frame ∈ sending.issued := by
  obtain ⟨_, _, _, initial⟩ := exact_withAcknowledged (T := T) created bounded
  obtain ⟨final, origin⟩ := receiveAll_exact calls initial
  rw [nil_append] at final
  refine ⟨final.distinct, final.received_union, final.acknowledged_greatest, ?_, ?_, ?_⟩
  · intro number pending
    have reaches := final.reaches number pending
    rw [final.windowSize] at reaches
    exact ⟨final.wellFormed.gap number pending, reaches⟩
  · intro currentServerTick packet error failed outcome
    exact receive_failed outcome
  · intro senderConfig first sender sending made firstBound run sent frame member
    obtain ⟨_, _, _, _, begun⟩ := InputSending.invariant_start made firstBound
    obtain ⟨call, called, carried⟩ := origin frame member
    exact (run.invariant begun).packets call.2 (sent call called) frame carried

def counterSender : InputSender Nat where
  config := .default
  nextSequence := 1
  acknowledgedSequence := 0
  acknowledgedServerTick := 0
  history := []

def counterReceiver : InputReceiver where
  config := .default
  sequences := { reorderWindow := 256, acknowledged := 0, pending := ∅ }

def counterSending : InputSending Nat :=
  (((InputSending.start counterSender).record 1 10).record 2 20).packet 1

theorem counterSending_reachable :
    InputSending.Reachable (InputSending.start counterSender) counterSending :=
  ((Relation.ReflTransGen.single (InputSending.Step.record 1 10)).tail
    (InputSending.Step.record 2 20)).tail (InputSending.Step.packet 1)

theorem counterSending_receivedTwice :
    let calls := counterSending.packets.flatMap (fun packet => [(1, packet), (2, packet)])
    let outcome := InputReceiver.receiveAll calls counterReceiver
    outcome.1.map (·.sequence) = [1, 2] ∧
      Set.Icc 1 0 ∪ {number | ∃ frame ∈ outcome.1, frame.sequence = number} =
        Set.Icc 1 outcome.2.sequences.acknowledged ∪
          {number | number ∈ outcome.2.sequences.pending} ∧
      ∀ frame ∈ outcome.1, frame ∈ counterSending.issued := by
  intro calls outcome
  have created : InputReceiver.withAcknowledged .default 0 = .ok counterReceiver := rfl
  have made : InputSender.withNextSequence .default 1 = .ok counterSender := rfl
  obtain ⟨_, union, _, _, _, recorded⟩ := receiveAll_exactlyOnce created (by decide) calls
  refine ⟨by decide +kernel, union, ?_⟩
  exact recorded .default 1 counterSender counterSending made (by decide)
    counterSending_reachable (by decide +kernel)

end ExactlyOnce

/-- Sender and receiver with everything that was ever put on the wire. Nothing is
taken off the wire: a lost message is never delivered, a duplicated one
repeatedly. `accepted` collects the frames of the successful calls. -/
structure InputStream (T : Type) extends InputSending T where
  receiver : InputReceiver
  serverTick : Nat
  acknowledgements : List InputAck
  accepted : List (InputFrame T)

namespace InputStream

section Steps

variable {T : Type}

def start (sender : InputSender T) (receiver : InputReceiver) (serverTick : Nat) :
    InputStream T :=
  { InputSending.start sender with
    receiver, serverTick, acknowledgements := [], accepted := [] }

def deliver (packet : InputPacket T) (stream : InputStream T) : InputStream T :=
  match (InputReceiver.receive stream.serverTick packet).call stream.receiver with
  | (.error _, receiver) => { stream with receiver }
  | (.ok report, receiver) =>
    { stream with
      receiver
      acknowledgements := stream.acknowledgements ++ [report.acknowledgement]
      accepted := stream.accepted ++ report.accepted }

inductive Step (stream : InputStream T) : InputStream T → Prop
  | record (targetTick : Nat) (input : T) :
      Step stream { stream with toInputSending := stream.toInputSending.record targetTick input }
  | packet (clientTick : Nat) :
      Step stream { stream with toInputSending := stream.toInputSending.packet clientTick }
  | advance (serverTick : Nat) (later : stream.serverTick ≤ serverTick) :
      Step stream { stream with serverTick }
  | deliver (packet : InputPacket T) (sent : packet ∈ stream.packets) :
      Step stream (stream.deliver packet)
  | acknowledge (acknowledgement : InputAck)
      (returned : acknowledgement ∈ stream.acknowledgements) :
      Step stream { stream with
        toInputSending := stream.toInputSending.acknowledge acknowledgement }

abbrev Reachable : InputStream T → InputStream T → Prop := Relation.ReflTransGen Step

/-- One round without loss: the packet the sender builds now arrives, and so does
the answer. -/
def exchange (serverTick : Nat) (pair : InputSender T × InputReceiver) (clientTick : Nat) :
    InputSender T × InputReceiver :=
  match (InputReceiver.receive serverTick (pair.1.packet clientTick)).call pair.2 with
  | (.error _, receiver) => (pair.1, receiver)
  | (.ok report, receiver) =>
    (((InputSender.acknowledge report.acknowledgement).call pair.1).2, receiver)

def rounds (stream : InputStream T) (clientTicks : List Nat) : InputSender T × InputReceiver :=
  clientTicks.foldl (exchange stream.serverTick) (stream.sender, stream.receiver)

/-- Every unacknowledged input may still be accepted at the current server tick. -/
def Timely (stream : InputStream T) : Prop :=
  ∀ frame ∈ stream.sender.history, 0 < frame.targetTick ∧
    stream.receiver.earliest stream.serverTick ≤ frame.targetTick ∧
    frame.targetTick ≤ stream.receiver.latest stream.serverTick

end Steps

section Invariant

variable {T : Type}

structure Invariant (senderConfig : InputSenderConfig) (receiverConfig : InputReceiverConfig)
    (first : Nat) (stream : InputStream T) : Prop where
  sending : stream.toInputSending.Invariant senderConfig first
  configured : stream.receiver.config = receiverConfig
  exact_ : Exact (first - 1) receiverConfig.reorderWindow stream.receiver.sequences stream.accepted
  recorded : ∀ frame ∈ stream.accepted, frame ∈ stream.issued
  behind : stream.sender.acknowledgedSequence ≤ stream.receiver.sequences.acknowledged
  past : stream.sender.acknowledgedServerTick ≤ stream.serverTick
  acknowledgements : ∀ acknowledgement ∈ stream.acknowledgements,
    acknowledgement.serverTick ≤ stream.serverTick ∧
    acknowledgement.acknowledgedSequence ≤ stream.receiver.sequences.acknowledged

variable {senderConfig : InputSenderConfig} {receiverConfig : InputReceiverConfig} {first : Nat}

theorem invariant_start {sender : InputSender T} {receiver : InputReceiver}
    (createdSender : InputSender.withNextSequence senderConfig first = .ok sender)
    (createdReceiver : InputReceiver.withAcknowledged receiverConfig (first - 1) = .ok receiver)
    (bounded : first ≤ u64Max) (serverTick : Nat) :
    Invariant senderConfig receiverConfig first (start sender receiver serverTick) := by
  obtain ⟨_, _, acknowledged, tick, sending⟩ :=
    InputSending.invariant_start createdSender bounded
  obtain ⟨configured, same, _, exact_⟩ :=
    exact_withAcknowledged (T := T) createdReceiver (le_trans (Nat.sub_le _ _) bounded)
  refine ⟨sending, configured, exact_, nofun, ?_, ?_,
    nofun⟩
  · show sender.acknowledgedSequence ≤ receiver.sequences.acknowledged
    omega
  · show sender.acknowledgedServerTick ≤ serverTick
    omega

theorem invariant_deliver {stream : InputStream T}
    (invariant : Invariant senderConfig receiverConfig first stream) {packet : InputPacket T}
    (sent : packet ∈ stream.packets) :
    Invariant senderConfig receiverConfig first (stream.deliver packet) := by
  unfold deliver
  rcases receive_cases stream.receiver stream.serverTick packet with
    ⟨error, failed⟩ | ⟨seen, report, _, called, _, answer⟩
  · rw [failed]
    exact invariant
  · obtain ⟨final, origin⟩ := receive_exact invariant.exact_ called
    have grows : stream.receiver.sequences.acknowledged ≤ _ :=
      final.acknowledged_greatest.2 fun number below =>
        (invariant.exact_.acknowledged_greatest.1 below).imp_right
          fun ⟨frame, member, same⟩ => ⟨frame, mem_append_left _ member, same⟩
    rw [called]
    refine ⟨invariant.sending, invariant.configured, final, ?_,
      le_trans invariant.behind grows, invariant.past, ?_⟩
    · exact forall_mem_append.mpr ⟨invariant.recorded, fun frame new =>
        invariant.sending.packets packet sent frame (origin frame new)⟩
    · intro acknowledgement member
      rcases mem_append.mp member with old | new
      · obtain ⟨tick, sequence⟩ := invariant.acknowledgements acknowledgement old
        exact ⟨tick, le_trans sequence grows⟩
      · rw [mem_singleton, answer] at new
        subst acknowledgement
        exact ⟨le_rfl, le_rfl⟩

theorem invariant_acknowledge {stream : InputStream T}
    (invariant : Invariant senderConfig receiverConfig first stream)
    {acknowledgement : InputAck} (returned : acknowledgement ∈ stream.acknowledgements) :
    Invariant senderConfig receiverConfig first
      { stream with toInputSending := stream.toInputSending.acknowledge acknowledgement } := by
  obtain ⟨tick, sequence⟩ := invariant.acknowledgements acknowledgement returned
  refine { invariant with
    sending := InputSending.invariant_acknowledge invariant.sending acknowledgement
    behind := ?_
    past := ?_ }
  all_goals
    simp only [InputSending.acknowledge]
    rcases acknowledge_cases stream.sender acknowledgement with
      ⟨_, unchanged⟩ | ⟨_, acknowledged⟩
  · rw [unchanged]
    exact invariant.behind
  · rw [acknowledged]
    exact max_le invariant.behind sequence
  · rw [unchanged]
    exact invariant.past
  · rw [acknowledged]
    exact max_le invariant.past tick

theorem Step.invariant {before after : InputStream T} (step : Step before after)
    (initial : Invariant senderConfig receiverConfig first before) :
    Invariant senderConfig receiverConfig first after := by
  cases step with
  | record targetTick input =>
    have sending := InputSending.invariant_record initial.sending targetTick input
    rcases before.toInputSending.record_cases targetTick input with
      unchanged | ⟨_, _, _, _, recorded⟩
    · rw [unchanged]
      exact initial
    · rw [recorded] at sending ⊢
      exact { initial with
        sending
        recorded := fun frame member => mem_append_left _ (initial.recorded frame member) }
  | packet clientTick =>
    exact { initial with
      sending := InputSending.invariant_packet initial.sending clientTick }
  | advance _ later =>
    exact { initial with
      past := le_trans initial.past later
      acknowledgements := fun acknowledgement member =>
        ⟨le_trans (initial.acknowledgements acknowledgement member).1 later,
          (initial.acknowledgements acknowledgement member).2⟩ }
  | deliver _ sent => exact invariant_deliver initial sent
  | acknowledge _ returned => exact invariant_acknowledge initial returned

theorem Reachable.invariant {before after : InputStream T} (run : Reachable before after)
    (initial : Invariant senderConfig receiverConfig first before) :
    Invariant senderConfig receiverConfig first after := by
  induction run with
  | refl => exact initial
  | tail _ step ih => exact step.invariant ih

end Invariant

section Stuck

variable {T : Type}
variable {frame : InputFrame T} {pair : InputSender T × InputReceiver}

structure Stranded (frame : InputFrame T) (pair : InputSender T × InputReceiver) : Prop where
  numbered : ∃ first, Numbered (·.sequence) first pair.1.history ∧
    first + pair.1.history.length = pair.1.nextSequence
  kept : frame ∈ pair.1.history
  older : frame.sequence + pair.1.config.redundancy < pair.1.nextSequence
  accepting : ∃ (start size : Nat) (accepted : List (InputFrame T)),
    Exact start size pair.2.sequences accepted
  missing : ¬pair.2.sequences.Received frame.sequence

section

variable (stranded : Stranded frame pair)
include stranded

theorem Stranded.acknowledge {acknowledgement : InputAck}
    (below : acknowledgement.acknowledgedSequence < frame.sequence) :
    Stranded frame (((InputSender.acknowledge acknowledgement).call pair.1).2, pair.2) := by
  rcases acknowledge_cases pair.1 acknowledgement with ⟨_, unchanged⟩ | ⟨_, acknowledged⟩
  · rw [unchanged]
    exact stranded
  · rw [acknowledged]
    refine ⟨?_, ?_, stranded.older, stranded.accepting, stranded.missing⟩
    · obtain ⟨first, numbered, last⟩ := stranded.numbered
      dsimp only
      split
      · exact ⟨first, numbered, last⟩
      · obtain ⟨start, renumbered, same⟩ := numbered.suffix (dropWhile_suffix _)
        exact ⟨start, renumbered, same.trans last⟩
    · dsimp only
      split
      · exact stranded.kept
      · have split := takeWhile_append_dropWhile
          (p := fun other : InputFrame T =>
            decide (other.sequence ≤ acknowledgement.acknowledgedSequence)) (l := pair.1.history)
        have kept := stranded.kept
        rw [← split] at kept
        rcases mem_append.mp kept with dropped | kept
        · have taken := mem_takeWhile_imp dropped
          simp only [decide_eq_true_eq] at taken
          omega
        · exact kept

theorem Stranded.exchange (serverTick clientTick : Nat) :
    Stranded frame (exchange serverTick pair clientTick) := by
  unfold InputStream.exchange
  obtain ⟨start, size, accepted, accepting⟩ := stranded.accepting
  rcases receive_cases pair.2 serverTick (pair.1.packet clientTick) with
    ⟨error, failed⟩ | ⟨seen, report, _, called, _, answer⟩
  · rw [failed]
    exact stranded
  · obtain ⟨final, origin⟩ := receive_exact accepting called
    have missing : ¬seen.sequences.Received frame.sequence := by
      intro received
      rcases (final.received _).mp received with low | ⟨other, member, same⟩
      · exact stranded.missing ((accepting.received _).mpr (.inl low))
      · rcases mem_append.mp member with old | new
        · exact stranded.missing ((accepting.received _).mpr (.inr ⟨other, old, same⟩))
        · obtain ⟨first, numbered, last⟩ := stranded.numbered
          have older := stranded.older
          obtain ⟨lower, _, _⟩ := (numbered.drop _).place (origin other new)
          omega
    have received : Stranded frame (pair.1, { pair.2 with sequences := seen.sequences }) :=
      ⟨stranded.numbered, stranded.kept, stranded.older, ⟨start, size, _, final⟩, missing⟩
    rw [called]
    refine received.acknowledge ?_
    rw [answer]
    exact Nat.lt_of_not_le (fun covered => missing (.inl covered))

theorem Stranded.rounds (serverTick : Nat)
    (clientTicks : List Nat) :
    Stranded frame (clientTicks.foldl (InputStream.exchange serverTick) pair) := by
  induction clientTicks generalizing pair with
  | nil => exact stranded
  | cons clientTick _ ih => exact ih (stranded.exchange serverTick clientTick)

end

end Stuck

section Progress

variable {T : Type} {senderConfig : InputSenderConfig} {receiverConfig : InputReceiverConfig}
  {first : Nat} {stream : InputStream T}

section

variable (invariant : Invariant senderConfig receiverConfig first stream)
include invariant

theorem Invariant.history_numbered :
    Numbered (·.sequence) (stream.sender.acknowledgedSequence + 1) stream.sender.history ∧
      stream.sender.acknowledgedSequence + 1 + stream.sender.history.length =
        stream.sender.nextSequence := by
  have reached := invariant.sending.reached
  have behind := invariant.sending.behind
  have next := invariant.sending.next
  have numbered := invariant.sending.numbered.drop
    (stream.sender.acknowledgedSequence + 1 - first)
  rw [← invariant.sending.history, Nat.add_sub_cancel' reached] at numbered
  refine ⟨numbered, ?_⟩
  rw [invariant.sending.history, length_drop]
  omega

theorem Invariant.received_lt
    (positive : 0 < first) {number : Nat}
    (received : stream.receiver.sequences.Received number) :
    number < stream.sender.nextSequence := by
  have next := invariant.sending.next
  rcases (invariant.exact_.received number).mp received with low | ⟨frame, member, same⟩
  · omega
  · obtain ⟨_, upper, _⟩ := invariant.sending.numbered.place (invariant.recorded frame member)
    omega

theorem Invariant.acknowledge_empties
    {acknowledgement : InputAck}
    (everything : acknowledgement.acknowledgedSequence + 1 = stream.sender.nextSequence) :
    ((InputSender.acknowledge acknowledgement).call stream.sender).2.history = [] ∧
      ((InputSender.acknowledge acknowledgement).call stream.sender).2.config = senderConfig := by
  obtain ⟨numbered, last⟩ := invariant.history_numbered
  rcases acknowledge_cases stream.sender acknowledgement with ⟨beyond, _⟩ | ⟨_, acknowledged⟩
  · omega
  · rw [acknowledged]
    refine ⟨?_, invariant.sending.configured⟩
    dsimp only
    split
    · rename_i stale
      exact eq_nil_of_length_eq_zero (by omega)
    · have emptied := numbered.dropWhile_le (show _ + 0 ≤
        acknowledgement.acknowledgedSequence + 1 by omega)
      rw [drop_zero] at emptied
      rw [emptied, drop_eq_nil_iff]
      omega

theorem Invariant.exchange_empties (positive : 0 < first)
    (window : senderConfig.historyCapacity ≤ receiverConfig.reorderWindow)
    (batch : senderConfig.redundancy ≤ receiverConfig.maxInputsPerPacket)
    (timely : stream.Timely)
    (covered : ∀ frame ∈ stream.sender.history.take
      (stream.sender.history.length - senderConfig.redundancy),
      stream.receiver.sequences.Received frame.sequence) (clientTick : Nat) :
    (exchange stream.serverTick (stream.sender, stream.receiver) clientTick).1.history = [] ∧
      (exchange stream.serverTick (stream.sender, stream.receiver) clientTick).1.config =
        senderConfig := by
  obtain ⟨numbered, last⟩ := invariant.history_numbered
  have carriedMem : ∀ frame ∈ (stream.sender.packet clientTick).inputs,
      frame ∈ stream.sender.history := fun frame carried => mem_of_mem_drop carried
  have short : (stream.sender.packet clientTick).inputs.length ≤
      stream.receiver.config.maxInputsPerPacket := by
    rw [invariant.configured]
    simp only [InputSender.packet, length_drop, invariant.sending.configured]
    omega
  have inside : ∀ frame ∈ (stream.sender.packet clientTick).inputs, 0 < frame.sequence ∧
      frame.sequence ≤ u64Max ∧ frame.sequence ≤
        stream.receiver.sequences.acknowledged + stream.receiver.sequences.reorderWindow := by
    intro frame carried
    obtain ⟨lower, upper, _⟩ := numbered.place (carriedMem frame carried)
    have bounded := invariant.sending.bounded
    have capacity := invariant.sending.capacity
    have behind := invariant.behind
    rw [invariant.exact_.windowSize]
    exact ⟨by omega, by omega, by omega⟩
  have sorted (frame : InputFrame T) : frame ∈ (stream.sender.packet clientTick).inputs.insertionSort
      (fun left right => left.sequence ≤ right.sequence) ↔
        frame ∈ (stream.sender.packet clientTick).inputs := (perm_insertionSort _ _).mem_iff
  obtain ⟨after, observed, wellFormed, _, _, received⟩ := @observeFrames_ok _ _ _ _
    ⟨stream.receiver.sequences, [], 0⟩ invariant.exact_.wellFormed
    (fun frame member => inside frame ((sorted frame).mp member))
    (fun frame member => timely frame (carriedMem frame ((sorted frame).mp member)))
  simp only [sorted] at received
  have everything : ∀ number, number < stream.sender.nextSequence →
      after.sequences.Received number := by
    intro number recorded
    rw [received]
    by_cases old : number ≤ stream.sender.acknowledgedSequence
    · exact .inl (.inl (le_trans old invariant.behind))
    · obtain ⟨frame, place, same⟩ := numbered.exists_entry (show _ ≤ number by omega) (by omega)
      have member := mem_of_getElem? place
      rw [← take_append_drop (stream.sender.history.length - senderConfig.redundancy)
        stream.sender.history] at member
      rcases mem_append.mp member with older | newer
      · exact .inl (same ▸ covered frame older)
      · refine .inr ⟨frame, ?_, same⟩
        rw [← invariant.sending.configured] at newer
        exact newer
  have nothingElse : ∀ number, after.sequences.Received number →
      number < stream.sender.nextSequence := by
    intro number known
    rcases (received number).mp known with before | ⟨frame, carried, same⟩
    · exact invariant.received_lt positive before
    · obtain ⟨_, upper, _⟩ := numbered.place (carriedMem frame carried)
      omega
  have reached : after.sequences.acknowledged + 1 = stream.sender.nextSequence := by
    have upper := nothingElse _ (.inl (le_refl after.sequences.acknowledged))
    by_contra short
    rcases everything (after.sequences.acknowledged + 1) (by omega) with low | pending
    · omega
    · have gap := wellFormed.gap _ pending
      omega
  have past : ¬stream.serverTick < (stream.sender.packet clientTick).acknowledgedServerTick :=
    Nat.not_lt.mpr invariant.past
  simp only [exchange, InputReceiver.receive, call_bind, call_get, if_neg (Nat.not_lt.mpr short),
    if_neg past, observed]
  refine invariant.acknowledge_empties ?_
  exact reached

theorem Invariant.stranded
    {frame : InputFrame T}
    (older : frame ∈ stream.sender.history.take
      (stream.sender.history.length - senderConfig.redundancy))
    (missing : ¬stream.receiver.sequences.Received frame.sequence) :
    Stranded frame (stream.sender, stream.receiver) := by
  obtain ⟨numbered, last⟩ := invariant.history_numbered
  refine ⟨⟨_, numbered, last⟩, mem_of_mem_take older, ?_, ⟨_, _, _, invariant.exact_⟩, missing⟩
  obtain ⟨index, found⟩ := mem_iff_getElem?.mp older
  rw [getElem?_take] at found
  split_ifs at found
  have value := numbered.number_eq found
  simp only [invariant.sending.configured]
  omega

end

theorem historyCapacity_pos (valid : senderConfig.validate = .ok ()) :
    0 < senderConfig.historyCapacity := by
  by_contra zero
  simp [InputSenderConfig.validate, Nat.eq_zero_of_not_pos zero] at valid

/-- Rounds without loss empty the history exactly when every unacknowledged input
older than the repeated ones has reached the receiver. -/
theorem history_empties_iff {sender : InputSender T} {receiver : InputReceiver}
    (createdSender : InputSender.withNextSequence senderConfig first = .ok sender)
    (createdReceiver : InputReceiver.withAcknowledged receiverConfig (first - 1) = .ok receiver)
    (bounded : first ≤ u64Max)
    (window : senderConfig.historyCapacity ≤ receiverConfig.reorderWindow)
    (batch : senderConfig.redundancy ≤ receiverConfig.maxInputsPerPacket)
    {serverTick : Nat} (run : Reachable (start sender receiver serverTick) stream)
    (timely : stream.Timely) :
    (∃ count, ∀ clientTicks : List Nat, clientTicks.length = count →
        (stream.rounds clientTicks).1.history = [] ∧
        ∀ (targetTick : Nat) (input : T),
          ((InputSender.record targetTick input).call (stream.rounds clientTicks).1).1 ≠
            .error .inputHistoryFull) ↔
      ∀ frame ∈ stream.sender.history.take
        (stream.sender.history.length - senderConfig.redundancy),
        stream.receiver.sequences.Received frame.sequence := by
  have invariant := run.invariant
    (invariant_start createdSender createdReceiver bounded serverTick)
  obtain ⟨valid, positive, _⟩ := InputSending.invariant_start createdSender bounded
  constructor
  · rintro ⟨count, empties⟩ frame older
    by_contra missing
    have stranded := (invariant.stranded older missing).rounds stream.serverTick
      (replicate count 0)
    have empty := (empties (replicate count 0) length_replicate).1
    have kept := stranded.kept
    rw [rounds] at empty
    rw [empty] at kept
    cases kept
  · intro covered
    refine ⟨1, fun clientTicks once => ?_⟩
    obtain ⟨clientTick, rfl⟩ := length_eq_one_iff.mp once
    obtain ⟨empty, configured⟩ :=
      invariant.exchange_empties positive window batch timely covered clientTick
    refine ⟨empty, fun targetTick input => ?_⟩
    have room : ¬(stream.rounds [clientTick]).1.config.historyCapacity ≤ 0 := by
      rw [rounds, foldl_cons, foldl_nil, configured]
      exact Nat.not_le.mpr (historyCapacity_pos valid)
    have none_ : (stream.rounds [clientTick]).1.history.length = 0 := congrArg length empty
    simp only [InputSender.record, call_bind, call_get, none_, if_neg room]
    by_cases early : targetTick = 0
    · simp [early]
    · cases checkedAdd _ 1 with
      | none | some => simp [early]

end Progress

section Lossy

def recordAll (inputs : List Nat) (stream : InputStream Nat) : InputStream Nat :=
  inputs.foldl (fun current input =>
    { current with toInputSending := current.toInputSending.record input input }) stream

theorem recordAll_reachable (inputs : List Nat) (stream : InputStream Nat) :
    Reachable stream (recordAll inputs stream) := by
  induction inputs generalizing stream with
  | nil => exact Relation.ReflTransGen.refl
  | cons input _ ih => exact Relation.ReflTransGen.head (Step.record input input) (ih _)

/-- Four inputs are recorded while every packet is lost. The first of them is in
no later packet. -/
def allLost : InputStream Nat :=
  recordAll [1, 2, 3, 4] (start counterSender counterReceiver 1)

def firstArrived : InputStream Nat :=
  let once := recordAll [1] (start counterSender counterReceiver 1)
  let sent : InputStream Nat :=
    { once with toInputSending := once.toInputSending.packet 1 }
  recordAll [2, 3, 4] (sent.deliver (once.sender.packet 1))

theorem firstArrived_reachable :
    Reachable (start counterSender counterReceiver 1) firstArrived :=
  (((recordAll_reachable [1] _).tail (Step.packet 1)).tail
    (Step.deliver _ (List.mem_append_right _ List.mem_cons_self))).trans
    (recordAll_reachable [2, 3, 4] _)

instance (stream : InputStream Nat) : Decidable stream.Timely :=
  inferInstanceAs (Decidable (∀ frame ∈ stream.sender.history, _))

theorem allLost_stays :
    InputSender.withNextSequence .default 1 = .ok counterSender ∧
      InputReceiver.withAcknowledged .default 0 = .ok counterReceiver ∧
      Reachable (start counterSender counterReceiver 1) allLost ∧ allLost.Timely ∧
      ∀ clientTicks, (allLost.rounds clientTicks).1.history ≠ [] := by
  have createdSender : InputSender.withNextSequence .default 1 = .ok counterSender := rfl
  have createdReceiver : InputReceiver.withAcknowledged .default 0 = .ok counterReceiver := rfl
  have run : Reachable (start counterSender counterReceiver 1) allLost :=
    recordAll_reachable _ _
  refine ⟨createdSender, createdReceiver, run, by decide, ?_⟩
  intro clientTicks empty
  have invariant := run.invariant
    (invariant_start createdSender createdReceiver (by decide) 1)
  have missing : ¬allLost.receiver.sequences.Received 1 := by
    simp [SequenceWindow.Received, allLost, recordAll, start, counterReceiver]
  have oldest : ({ sequence := 1, targetTick := 1, input := 1 } : InputFrame Nat) ∈
      allLost.sender.history.take (allLost.sender.history.length - 3) := by decide
  have stranded := (invariant.stranded oldest missing).rounds allLost.serverTick clientTicks
  have kept := stranded.kept
  rw [rounds] at empty
  rw [empty] at kept
  cases kept

theorem firstArrived_empties : firstArrived.sender.history.length = 4 ∧
    ∃ count, ∀ clientTicks : List Nat, clientTicks.length = count →
      (firstArrived.rounds clientTicks).1.history = [] ∧
      ∀ targetTick input : Nat,
        ((InputSender.record targetTick input).call (firstArrived.rounds clientTicks).1).1 ≠
          .error .inputHistoryFull := by
  have createdSender : InputSender.withNextSequence .default 1 = .ok counterSender := rfl
  have createdReceiver : InputReceiver.withAcknowledged .default (1 - 1) = .ok counterReceiver :=
    rfl
  have covered : ∀ frame ∈ firstArrived.sender.history.take
      (firstArrived.sender.history.length - 3),
      firstArrived.receiver.sequences.Received frame.sequence := by decide +kernel
  have timely : firstArrived.Timely := by decide +kernel
  exact ⟨by decide +kernel, (history_empties_iff createdSender createdReceiver (by decide)
    (by decide) (by decide) firstArrived_reachable timely).mpr covered⟩

end Lossy

end InputStream

end Elura.Netcode
