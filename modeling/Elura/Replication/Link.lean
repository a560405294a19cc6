import Elura.Replication.Delivery
import Elura.Replication.Sender

/-!
One observer stream: a sender and a receiver joined by a network that may lose, duplicate, delay
and reorder. `issued` records every batch the sender ever queued.
-/

namespace Elura.Replication

open List ReplicationSender

open Std (ExtTreeMap TransOrd LawfulEqOrd)

/-- Both parties and everything that was ever put on the wire. Nothing is taken
off the wire: a lost message is never delivered, a duplicated one repeatedly. -/
structure Link (I S D : Type) [Ord I] where
  sender : ReplicationSender I S D
  receiver : ReplicationReceiver I S D
  issued : List (ReplicationBatch I S D)
  packets : List (ReplicationPacket I S D)
  acknowledgements : List ReplicationAck

namespace Link

section Steps

variable {I S D : Type} [Ord I] [TransOrd I]

def start (sender : ReplicationSender I S D) (receiver : ReplicationReceiver I S D) :
    Link I S D :=
  { sender, receiver, issued := [], packets := [], acknowledgements := [] }

def afterUpdate (link : Link I S D) (sender : ReplicationSender I S D) : Link I S D :=
  { link with
    sender
    issued := link.issued ++ sender.pending.drop link.sender.pending.length }

def afterDelivery (link : Link I S D)
    (outcome : Except ReplicationError ReplicationReceiveReport × ReplicationReceiver I S D) :
    Link I S D :=
  { link with
    receiver := outcome.2
    acknowledgements := link.acknowledgements ++
      (outcome.1.toOption.map (·.acknowledgement)).toList }

inductive Step (applyDelta : I → S → D → Option S) : Link I S D → Link I S D → Prop
  | update (link : Link I S D) (tick count : Nat) (visible : List (I × VersionedState S))
      (delta : I → VersionedState S → VersionedState S → Option D)
      (lawful : LawfulUpdate applyDelta link.sender.projected visible delta)
      (succeeded : ((ReplicationSender.update tick visible delta).call link.sender).1 = .ok count) :
      Step applyDelta link
        (link.afterUpdate ((ReplicationSender.update tick visible delta).call link.sender).2)
  | forceKeyframes (link : Link I S D) :
      Step applyDelta link { link with sender := link.sender.forceKeyframes }
  | packet (link : Link I S D) :
      Step applyDelta link { link with packets := link.packets ++ [link.sender.packet] }
  | deliver (link : Link I S D) (packet : ReplicationPacket I S D)
      (sent : packet ∈ link.packets) :
      Step applyDelta link (link.afterDelivery
        ((ReplicationReceiver.receive packet applyDelta).call link.receiver))
  | acknowledge (link : Link I S D) (acknowledgement : ReplicationAck)
      (returned : acknowledgement ∈ link.acknowledgements) :
      Step applyDelta link { link with
        sender := ((ReplicationSender.acknowledge acknowledgement).call link.sender).2 }

abbrev Reachable (applyDelta : I → S → D → Option S) : Link I S D → Link I S D → Prop :=
  Relation.ReflTransGen (Step applyDelta)

/-- Deliver the packet the sender would build now, then acknowledge with the
receiver's answer. -/
def round (applyDelta : I → S → D → Option S) (link : Link I S D) : Link I S D :=
  let sent := { link with packets := link.packets ++ [link.sender.packet] }
  let outcome := (ReplicationReceiver.receive link.sender.packet applyDelta).call link.receiver
  let delivered := sent.afterDelivery outcome
  match outcome.1 with
  | .ok report =>
    { delivered with
      sender := ((ReplicationSender.acknowledge report.acknowledgement).call link.sender).2 }
  | .error _ => delivered

theorem round_reachable (applyDelta : I → S → D → Option S) (link : Link I S D) :
    Reachable applyDelta link (link.round applyDelta) := by
  have run : Reachable applyDelta link
      ({ link with packets := link.packets ++ [link.sender.packet] }.afterDelivery
        ((ReplicationReceiver.receive link.sender.packet applyDelta).call link.receiver)) :=
    (Relation.ReflTransGen.single (Step.packet link)).tail
      (Step.deliver _ link.sender.packet (by simp))
  cases received : (ReplicationReceiver.receive link.sender.packet applyDelta).call
      link.receiver with
  | mk outcome receiver =>
    cases outcome with
    | error =>
      simp only [round]
      simpa only [received] using run
    | ok report =>
      simp only [round, received]
      simp only [received] at run
      exact run.tail (Step.acknowledge _ report.acknowledgement
        (by simp [afterDelivery, Except.toOption]))

end Steps

section Invariant

variable {I S D : Type} [Ord I] [TransOrd I]
variable {config : ReplicationConfig} {applyDelta : I → S → D → Option S} {link : Link I S D}

structure Invariant (config : ReplicationConfig) (applyDelta : I → S → D → Option S)
    (link : Link I S D) : Prop where
  senderConfig : link.sender.config = config
  receiverConfig : link.receiver.config = config
  log : WellFormedLog config applyDelta link.issued
  next : link.sender.nextSequence = link.issued.length + 1
  pending : link.sender.pending = link.issued.drop link.sender.acknowledgedSequence
  capacity : link.issued.length ≤ link.sender.acknowledgedSequence + config.historyCapacity
  behind : link.sender.acknowledgedSequence ≤ link.receiver.sequences.acknowledged
  tracks : Tracks applyDelta link.issued link.receiver
  projected : applyBatches applyDelta link.issued = link.sender.projected
  ticks : ∀ batch ∈ link.issued, batch.tick ≤ link.sender.lastTick
  packets : ∀ packet ∈ link.packets, packet.batches.length ≤ config.redundancy ∧
    ∀ batch ∈ packet.batches, batch ∈ link.issued
  acknowledgements : ∀ acknowledgement ∈ link.acknowledgements,
    acknowledgement.acknowledgedSequence ≤ link.receiver.sequences.acknowledged ∧
    acknowledgement.appliedTick =
      lastTick (link.issued.take acknowledgement.acknowledgedSequence)

theorem invariant_start (applyDelta : I → S → D → Option S) {sender : ReplicationSender I S D}
    {receiver : ReplicationReceiver I S D}
    (createdSender : ReplicationSender.new config = .ok sender)
    (createdReceiver : ReplicationReceiver.new config = .ok receiver) :
    config.Valid ∧ Invariant config applyDelta (start sender receiver) := by
  cases checked : config.validate with
  | error => simp [new, checked] at createdSender
  | ok =>
    have valid := ReplicationConfig.valid_of_validate checked
    simp only [new, checked, bind, Except.bind, pure, Except.pure,
      Except.ok.injEq] at createdSender
    subst sender
    obtain ⟨configured, acknowledged, tracks⟩ := tracks_new applyDelta createdReceiver
    exact ⟨valid, rfl, configured, wellFormedLog_nil config applyDelta, rfl, rfl, by simp [start],
      Nat.zero_le _, tracks, rfl, by simp [start], by simp [start], by simp [start]⟩

theorem WellFormedLog.append_update [LawfulEqOrd I] {log : List (ReplicationBatch I S D)}
    (wellFormed : WellFormedLog config applyDelta log) (tick count : Nat)
    (events : List (ReplicationEvent I S D)) (bounded : log.length + 1 + count ≤ u64Max)
    (positive : 0 < tick) (later : ∀ batch ∈ log, batch.tick ≤ tick)
    (enough : events.length ≤ count * config.maxEventsPerBatch)
    (distinct : (events.map ReplicationEvent.entity).Nodup)
    (run : AdmissibleRun config.maxEntities applyDelta (applyBatches applyDelta log) events) :
    WellFormedLog config applyDelta
      (log ++ queueBatches tick config.maxEventsPerBatch (log.length + 1) count events) := by
  have facts := queueBatches_mem tick config.maxEventsPerBatch (log.length + 1) count events
  refine ⟨?_, ?_, ?_, ?_, ?_, ?_, ?_⟩
  · rw [map_append, wellFormed.numbered, queueBatches_sequences, length_append,
      queueBatches_length, Nat.add_comm log.length 1, range'_append_1]
  · rw [length_append, queueBatches_length]
    omega
  · refine forall_mem_append.mpr ⟨wellFormed.ticked, fun batch new => ?_⟩
    rw [(facts batch new).1]
    exact positive
  · rw [pairwise_append]
    refine ⟨wellFormed.ordered, ?_, ?_⟩
    · apply pairwise_of_forall_mem_list
      intro left leftMember right rightMember
      rw [(facts left leftMember).1, (facts right rightMember).1]
    · intro left leftMember right rightMember
      rw [(facts right rightMember).1]
      exact later left leftMember
  · exact forall_mem_append.mpr ⟨wellFormed.sized, fun batch new => (facts batch new).2.1⟩
  · refine forall_mem_append.mpr ⟨wellFormed.distinct, fun batch new => ?_⟩
    exact ((facts batch new).2.2.map _).nodup distinct
  · rw [flatMap_append, admissibleRun_append, queueBatches_events _ _ _ _ _ enough]
    exact ⟨wellFormed.admissible, run⟩

theorem invariant_update [LawfulEqOrd I] (valid : config.Valid)
    (invariant : Invariant config applyDelta link) {tick count : Nat}
    {visible : List (I × VersionedState S)}
    {delta : I → VersionedState S → VersionedState S → Option D} {after : ReplicationSender I S D}
    (lawful : LawfulUpdate applyDelta link.sender.projected visible delta)
    (succeeded : (ReplicationSender.update tick visible delta).call link.sender =
      (.ok count, after)) : Invariant config applyDelta (link.afterUpdate after) := by
  obtain ⟨desired, changed, positive, later, collected, limit, produced, counted, capacity,
    bounded, rfl⟩ := update_ok succeeded
  rw [invariant.senderConfig] at limit counted capacity
  rw [invariant.next] at bounded
  have acknowledged : link.sender.acknowledgedSequence ≤ link.issued.length :=
    le_trans invariant.behind invariant.tracks.acknowledged_le
  obtain ⟨run, reconciled, distinct⟩ := reconcile_spec produced
    (by
      intro entity current found
      rcases collectVisible_mem visible ∅ desired collected entity current found with old | new
      · simp at old
      · exact lawful entity current new)
    limit
  have enough := le_divCeil_mul (despawnEvents link.sender.projected desired ++ changed).length
    config.maxEventsPerBatch valid.eventsPositive
  rw [← counted] at enough
  simp only [afterUpdate, drop_left, invariant.senderConfig, invariant.next]
  refine ⟨rfl, invariant.receiverConfig, ?_, ?_, ?_, ?_, invariant.behind,
    invariant.tracks.append _, ?_, ?_, ?_, ?_⟩
  · exact WellFormedLog.append_update invariant.log tick count _ (by omega) positive
      (fun batch member => le_trans (invariant.ticks batch member) (by omega)) enough distinct
      (by rw [invariant.projected]; exact run)
  · simp only [length_append, queueBatches_length]
    omega
  · simp only [invariant.pending]
    rw [drop_append_of_le_length acknowledged]
  · have room : link.sender.pending.length + count ≤ config.historyCapacity := by
      rw [saturatingAdd_of_le] at capacity
      · exact capacity
      · rw [invariant.pending, length_drop]
        omega
    rw [invariant.pending, length_drop] at room
    simp only [length_append, queueBatches_length]
    omega
  · rw [applyBatches_append, queueBatches_events _ _ _ _ _ enough, invariant.projected]
    exact reconciled
  · refine forall_mem_append.mpr ⟨fun batch old => ?_, fun batch new => ?_⟩
    · exact le_trans (invariant.ticks batch old) (le_of_lt later)
    · exact le_of_eq (queueBatches_mem _ _ _ _ _ batch new).1
  · intro packet member
    obtain ⟨short, fromLog⟩ := invariant.packets packet member
    exact ⟨short, fun batch belongs => mem_append_left _ (fromLog batch belongs)⟩
  · intro acknowledgement member
    obtain ⟨bound, tickEq⟩ := invariant.acknowledgements acknowledgement member
    refine ⟨bound, ?_⟩
    rw [take_append_of_le_length (le_trans bound invariant.tracks.acknowledged_le)]
    exact tickEq

theorem Invariant.covered (valid : config.Valid) (invariant : Invariant config applyDelta link) :
    link.issued.length ≤ link.receiver.sequences.acknowledged + config.reorderWindow := by
  have capacity := invariant.capacity
  have behind := invariant.behind
  have covers := valid.windowCovers
  omega

theorem invariant_packet (valid : config.Valid) (invariant : Invariant config applyDelta link) :
    Invariant config applyDelta { link with packets := link.packets ++ [link.sender.packet] } := by
  refine { invariant with packets := ?_ }
  obtain ⟨short, retained, _⟩ := link.sender.packet_spec (by
    rw [invariant.senderConfig]
    exact valid.redundancyPositive)
  rw [invariant.senderConfig] at short
  refine forall_mem_append.mpr
    ⟨invariant.packets, forall_mem_singleton.mpr ⟨short, fun batch belongs => ?_⟩⟩
  have kept := retained batch belongs
  rw [invariant.pending] at kept
  exact mem_of_mem_drop kept

/-- A packet of issued batches is received; its acknowledgement names the last
applied batch and its tick. -/
theorem invariant_deliver [LawfulEqOrd I] (valid : config.Valid)
    (invariant : Invariant config applyDelta link) (packet : ReplicationPacket I S D)
    (short : packet.batches.length ≤ config.redundancy)
    (fromLog : ∀ batch ∈ packet.batches, batch ∈ link.issued) :
    ∃ report after, (ReplicationReceiver.receive packet applyDelta).call link.receiver =
        (.ok report, after) ∧
      Invariant config applyDelta (link.afterDelivery (.ok report, after)) ∧
      report.acknowledgement ∈ (link.afterDelivery (.ok report, after)).acknowledgements ∧
      report.acknowledgement.acknowledgedSequence = after.sequences.acknowledged ∧
      ∀ batch ∈ packet.batches, after.sequences.Received batch.sequence := by
  obtain ⟨report, after, computed, sameConfig, tracks, grows, acknowledged, received⟩ :=
    receive_spec invariant.log link.receiver invariant.receiverConfig invariant.tracks packet
      short fromLog (invariant.covered valid)
  refine ⟨report, after, computed, ?_, by simp [afterDelivery, Except.toOption],
    by rw [acknowledged], received⟩
  refine { invariant with
    receiverConfig := sameConfig
    behind := le_trans invariant.behind grows
    tracks := tracks
    acknowledgements := ?_ }
  intro acknowledgement member
  rcases mem_append.mp member with old | new
  · obtain ⟨bound, tick⟩ := invariant.acknowledgements acknowledgement old
    exact ⟨le_trans bound grows, tick⟩
  · have same : acknowledgement = report.acknowledgement := by
      simpa [Except.toOption] using new
    subst acknowledgement
    rw [acknowledged]
    exact ⟨le_rfl, tracks.tick⟩

theorem invariant_acknowledge (invariant : Invariant config applyDelta link)
    {acknowledgement : ReplicationAck} (returned : acknowledgement ∈ link.acknowledgements) :
    ∃ released after, (ReplicationSender.acknowledge acknowledgement).call link.sender =
        (.ok released, after) ∧
      Invariant config applyDelta { link with sender := after } ∧
      after.acknowledgedSequence =
        max link.sender.acknowledgedSequence acknowledgement.acknowledgedSequence ∧
      after.pending.length + released = link.sender.pending.length := by
  obtain ⟨bound, tick⟩ := invariant.acknowledgements acknowledgement returned
  have issuedBound := le_trans bound invariant.tracks.acknowledged_le
  have last : acknowledgement.acknowledgedSequence ≤ link.sender.nextSequence - 1 := by
    rw [invariant.next]
    omega
  rcases link.sender.acknowledge_cases acknowledgement last with ⟨old, computed⟩ | ⟨new, computed⟩
  · exact ⟨0, link.sender, computed, invariant, by omega, rfl⟩
  · have index : acknowledgement.acknowledgedSequence - 1 < link.issued.length := by omega
    have found : link.issued[acknowledgement.acknowledgedSequence - 1]? =
        some link.issued[acknowledgement.acknowledgedSequence - 1] :=
      getElem?_eq_getElem index
    have number := invariant.log.sequence_eq found
    have retained : link.issued[acknowledgement.acknowledgedSequence - 1] ∈
        link.sender.pending := by
      rw [invariant.pending]
      refine mem_iff_getElem?.mpr
        ⟨acknowledgement.acknowledgedSequence - 1 - link.sender.acknowledgedSequence, ?_⟩
      rw [getElem?_drop, Nat.add_sub_cancel' (by omega)]
      exact found
    cases search : link.sender.pending.find?
        (·.sequence = acknowledgement.acknowledgedSequence) with
    | none =>
      have missing := find?_eq_none.mp search _ retained
      simp only [decide_eq_true_eq] at missing
      omega
    | some batch =>
      have sequence : batch.sequence = acknowledgement.acknowledgedSequence := by
        simpa using find?_some search
      have member : batch ∈ link.issued := by
        have kept := mem_of_find?_eq_some search
        rw [invariant.pending] at kept
        exact mem_of_mem_drop kept
      have place := (invariant.log.mem_sequence member).2.2
      have sameTick : batch.tick = acknowledgement.appliedTick := by
        have prefixed : link.issued.take acknowledgement.acknowledgedSequence =
            link.issued.take (acknowledgement.acknowledgedSequence - 1) ++ [batch] := by
          have step := take_add_one
            (l := link.issued) (i := acknowledgement.acknowledgedSequence - 1)
          rw [← sequence, place, Nat.sub_add_cancel (by omega)] at step
          rw [← sequence]
          exact step
        rw [tick, prefixed, lastTick_append]
      have dropped := invariant.log.dropWhile_sequence_le (le_of_lt new)
      rw [← invariant.pending] at dropped
      have result := computed batch search sameTick
      simp only [dropped] at result
      refine ⟨_, _, result, ?_, by simp only; omega, ?_⟩
      · refine { invariant with pending := rfl, capacity := ?_, behind := bound }
        have capacity := invariant.capacity
        simp only
        omega
      · simp only [invariant.pending, length_drop]
        omega

theorem invariant_reachable [LawfulEqOrd I] (valid : config.Valid) {first : Link I S D}
    (invariant : Invariant config applyDelta first) (reachable : Reachable applyDelta first link) :
    Invariant config applyDelta link := by
  induction reachable with
  | refl => exact invariant
  | tail _ step ih =>
    cases step with
    | update _ _ _ _ lawful succeeded =>
      exact invariant_update valid ih lawful (Prod.ext succeeded rfl)
    | forceKeyframes => exact { ih with }
    | packet => exact invariant_packet valid ih
    | deliver packet sent =>
      obtain ⟨short, fromLog⟩ := ih.packets packet sent
      obtain ⟨report, after, computed, kept, _⟩ := invariant_deliver valid ih packet short fromLog
      rw [computed]
      exact kept
    | acknowledge _ returned =>
      obtain ⟨released, after, computed, kept, _⟩ := invariant_acknowledge ih returned
      rw [computed]
      exact kept

section

variable [LawfulEqOrd I] (valid : config.Valid) (invariant : Invariant config applyDelta link)
include valid invariant

theorem round_spec :
    ∃ report receiver released sender,
      (ReplicationReceiver.receive link.sender.packet applyDelta).call link.receiver =
        (.ok report, receiver) ∧
      (ReplicationSender.acknowledge report.acknowledgement).call link.sender =
        (.ok released, sender) ∧
      (link.sender.pending ≠ [] → 0 < released) ∧
      sender.pending.length + released = link.sender.pending.length ∧
      (link.round applyDelta).sender = sender ∧
      Invariant config applyDelta (link.round applyDelta) := by
  have sent := invariant_packet valid invariant
  obtain ⟨short, fromLog⟩ := sent.packets link.sender.packet (by simp)
  obtain ⟨report, receiver, received, delivered, returned, acknowledged, covered⟩ :=
    invariant_deliver valid sent link.sender.packet short fromLog
  obtain ⟨released, sender, computed, kept, advanced, counted⟩ :=
    invariant_acknowledge delivered returned
  change (acknowledge report.acknowledgement).call link.sender =
    (.ok released, sender) at computed
  refine ⟨report, receiver, released, sender, received, computed, ?_, counted, ?_, ?_⟩
  · intro waiting
    obtain ⟨oldest, rest, pending⟩ := List.exists_cons_of_ne_nil waiting
    have included := (link.sender.packet_spec (by
      rw [invariant.senderConfig]
      exact valid.redundancyPositive)).2.2 oldest (by simp [pending])
    have place : link.issued[link.sender.acknowledgedSequence]? = some oldest := by
      rw [← List.head?_drop, ← invariant.pending, pending]
      rfl
    have number := invariant.log.sequence_eq place
    have arrived := covered oldest included
    have behind := delivered.behind
    have gap := delivered.tracks.window.gap oldest.sequence
    change link.sender.acknowledgedSequence ≤ receiver.sequences.acknowledged at behind
    change oldest.sequence ∈ receiver.sequences.pending →
      receiver.sequences.acknowledged + 1 < oldest.sequence at gap
    have reached : link.sender.acknowledgedSequence < receiver.sequences.acknowledged := by
      rcases arrived with below | buffered
      · omega
      · have beyond := gap buffered
        omega
    change sender.acknowledgedSequence = max link.sender.acknowledgedSequence
      report.acknowledgement.acknowledgedSequence at advanced
    change sender.pending.length + released = link.sender.pending.length at counted
    have after : sender.pending = link.issued.drop sender.acknowledgedSequence := kept.pending
    have bound : link.sender.acknowledgedSequence < link.issued.length :=
      (List.getElem?_eq_some_iff.mp place).1
    rw [after, invariant.pending, List.length_drop, List.length_drop] at counted
    omega
  · simp only [round, received, computed]
  · simp only [round, received, computed]
    exact kept

theorem iterate_round_pending {count : Nat} (bound : link.sender.pending.length ≤ count) :
    ((round applyDelta)^[count] link).sender.pending = [] := by
  induction count generalizing link with
  | zero => exact length_eq_zero_iff.mp (Nat.le_zero.mp bound)
  | succ _ ih =>
    obtain ⟨_, _, released, sender, _, _, progress, counted, same, kept⟩ :=
      round_spec valid invariant
    rw [Function.iterate_succ_apply]
    refine ih kept ?_
    rw [same]
    by_cases waiting : link.sender.pending = []
    · simp only [waiting, length_nil] at counted
      omega
    · have positive := progress waiting
      omega

end

end Invariant

section Results

variable {I S D : Type} [Ord I] [TransOrd I]

/-- Whatever the network does, every packet is received, every acknowledgement is
accepted, and the receiver's table is that of the acknowledged batches; once
everything issued is acknowledged it is the sender's projection. -/
theorem converges [LawfulEqOrd I] (config : ReplicationConfig)
    (applyDelta : I → S → D → Option S) (sender : ReplicationSender I S D)
    (receiver : ReplicationReceiver I S D)
    (createdSender : ReplicationSender.new config = .ok sender)
    (createdReceiver : ReplicationReceiver.new config = .ok receiver)
    (link : Link I S D) (reachable : Reachable applyDelta (start sender receiver) link) :
    (∀ packet ∈ link.packets, ∃ report,
      ((ReplicationReceiver.receive packet applyDelta).call link.receiver).1 = .ok report) ∧
    (∀ acknowledgement ∈ link.acknowledgements, ∃ released,
      ((ReplicationSender.acknowledge acknowledgement).call link.sender).1 = .ok released) ∧
    link.issued.map (·.sequence) = List.range' 1 link.issued.length ∧
    link.sender.nextSequence = link.issued.length + 1 ∧
    link.receiver.acknowledgedSequence ≤ link.issued.length ∧
    link.receiver.entities =
      applyBatches applyDelta (link.issued.take link.receiver.acknowledgedSequence) ∧
    (link.receiver.acknowledgedSequence = link.sender.nextSequence - 1 →
      link.receiver.entities = link.sender.projected) := by
  obtain ⟨valid, initial⟩ := invariant_start applyDelta createdSender createdReceiver
  have invariant := invariant_reachable valid initial reachable
  refine ⟨?_, ?_, invariant.log.numbered, invariant.next, invariant.tracks.acknowledged_le,
    invariant.tracks.entities, ?_⟩
  · intro packet sent
    obtain ⟨short, fromLog⟩ := invariant.packets packet sent
    obtain ⟨report, after, computed, _⟩ := invariant_deliver valid invariant packet short fromLog
    exact ⟨report, by rw [computed]⟩
  · intro acknowledgement returned
    obtain ⟨released, after, computed, _⟩ := invariant_acknowledge invariant returned
    exact ⟨released, by rw [computed]⟩
  · intro complete
    rw [invariant.next] at complete
    have entities := invariant.tracks.entities
    change link.receiver.sequences.acknowledged = link.issued.length at complete
    rw [complete, take_length, invariant.projected] at entities
    exact entities

def sampleSender : ReplicationSender Nat Nat Nat :=
  { config := .default, nextSequence := 1, acknowledgedSequence := 0, lastTick := 0,
    projected := ∅, pending := [], keyframesForced := false }

def sampleReceiver : ReplicationReceiver Nat Nat Nat :=
  { config := .default, sequences := { reorderWindow := 256, acknowledged := 0, pending := ∅ },
    pending := ∅, entities := ∅, appliedTick := 0 }

def sampleLink : Link Nat Nat Nat :=
  (start sampleSender sampleReceiver).afterUpdate ((ReplicationSender.update 1
    [(7, { version := 1, predictionKey := none, state := 5 })] (fun _ _ _ => none)).call
      sampleSender).2

theorem sampleLink_reachable :
    Reachable (fun _ state delta => some (state + delta)) (start sampleSender sampleReceiver)
      sampleLink := by
  refine Relation.ReflTransGen.single (Step.update _ 1 1 _ _ ?_ (by decide +kernel))
  intro entity current _ previous found
  simp [start, sampleSender] at found

theorem converges_sampleLink :
    sampleLink.sender.projected.toList =
      [(7, { version := 1, predictionKey := none, state := 5 })] ∧
    (sampleLink.round (fun _ state delta => some (state + delta))).receiver.entities =
      (sampleLink.round (fun _ state delta => some (state + delta))).sender.projected := by
  refine ⟨by decide, ?_⟩
  refine (converges .default _ sampleSender sampleReceiver (by rfl) (by rfl) _
    (sampleLink_reachable.trans (round_reachable _ _))).2.2.2.2.2.2 ?_
  decide +kernel

/-- From every reachable pair one round trip releases a batch, so as many round
trips as there are pending batches empty the sender's history. -/
theorem progresses [LawfulEqOrd I] (config : ReplicationConfig)
    (applyDelta : I → S → D → Option S) (sender : ReplicationSender I S D)
    (receiver : ReplicationReceiver I S D)
    (createdSender : ReplicationSender.new config = .ok sender)
    (createdReceiver : ReplicationReceiver.new config = .ok receiver)
    (link : Link I S D) (reachable : Reachable applyDelta (start sender receiver) link) :
    (link.sender.pending ≠ [] → ∃ report after released remaining,
      (ReplicationReceiver.receive link.sender.packet applyDelta).call link.receiver =
        (.ok report, after) ∧
      (ReplicationSender.acknowledge report.acknowledgement).call link.sender =
        (.ok released, remaining) ∧
      0 < released ∧ remaining.pending.length + released = link.sender.pending.length) ∧
    ((round applyDelta)^[link.sender.pending.length] link).sender.pending = [] := by
  obtain ⟨valid, initial⟩ := invariant_start applyDelta createdSender createdReceiver
  have invariant := invariant_reachable valid initial reachable
  constructor
  · intro waiting
    obtain ⟨report, after, released, remaining, received, computed, progress, counted, _⟩ :=
      round_spec valid invariant
    exact ⟨report, after, released, remaining, received, computed, progress waiting, counted⟩
  · exact iterate_round_pending valid invariant le_rfl

theorem progresses_sampleLink :
    sampleLink.sender.pending.length = 1 ∧
    (sampleLink.round (fun _ state delta => some (state + delta))).sender.pending = [] := by
  refine ⟨by decide, ?_⟩
  exact (progresses .default _ sampleSender sampleReceiver (by rfl) (by rfl) _
    sampleLink_reachable).2

end Results

end Link

end Elura.Replication
