import Elura.Replication.Link

/-!
What holds whatever the two ends of the replication protocol are given. A call that
fails changes nothing; and after any packets the payloads a receiver has stored are
those its sequence window waits with, within the limits of its configuration.
-/

namespace Elura.Replication

open List

open Std (ExtTreeMap ExtTreeSet TransOrd LawfulEqOrd)
open Netcode (SequenceWindow)
open Fallible

section Errors

variable {I S D : Type} [Ord I] [TransOrd I]

theorem errors_transactional (receiver : ReplicationReceiver I S D)
    (packet : ReplicationPacket I S D) (applyDelta : I → S → D → Option S)
    (sender : ReplicationSender I S D) (tick : Nat) (visible : List (I × VersionedState S))
    (delta : I → VersionedState S → VersionedState S → Option D)
    (acknowledgement : ReplicationAck) :
    Transactional (ReplicationReceiver.receive packet applyDelta) receiver ∧
      Transactional (ReplicationSender.update tick visible delta) sender ∧
      Transactional (ReplicationSender.acknowledge acknowledgement) sender := by
  refine ⟨transactional_get_bind ?_, transactional_get_bind ?_, transactional_get_bind ?_⟩
  · refine transactional_ite (transactional_throw _) ?_
    exact transactional_lift_bind fun seen =>
      transactional_lift_bind fun progress => transactional_commit _ _
  · refine transactional_ite (transactional_throw _) (transactional_lift_bind fun desired => ?_)
    refine transactional_ite (transactional_throw _) (transactional_lift_bind fun changed => ?_)
    refine transactional_ite (transactional_throw _) ?_
    split
    · exact transactional_throw _
    · exact transactional_commit _ _
  · -- an old acknowledgement is answered without a change
    refine transactional_ite (transactional_throw _) (transactional_ite (by rintro _ _ ⟨⟩) ?_)
    split
    · exact transactional_throw _
    · exact transactional_ite (transactional_throw _) (transactional_commit _ _)

theorem unissued_acknowledgement_refused :
    let refused := (ReplicationSender.acknowledge ⟨9, 1⟩).call Link.sampleSender
    refused.1 = .error .invalidAcknowledgement ∧ refused.2 = Link.sampleSender :=
  ⟨rfl, (errors_transactional Link.sampleReceiver ⟨[]⟩ (fun _ _ _ => none) Link.sampleSender 1 []
    (fun _ _ _ => none) ⟨9, 1⟩).2.2 _ _ rfl⟩

end Errors

section Staging

variable {I S D : Type} [Ord I] [TransOrd I] [LawfulEqOrd I]
variable {entities : EntityTable I S} {maxEntities : Nat} {applyDelta : I → S → D → Option S}
  {staged : Staged I S}

def payloadMissing : ReplicationError := .invalidPacket "contiguous batch payload is missing"

/-- A stage of `receive` may refuse a packet, but not for a payload that is missing. -/
def Expected {A : Type} (kept : A → Prop) : Except ReplicationError A → Prop
  | .error error => error ≠ payloadMissing
  | .ok value => kept value

def Staged.Within (entities : EntityTable I S) (maxEntities : Nat) (staged : Staged I S) : Prop :=
  staged.Counted entities ∧ staged.entityCount ≤ maxEntities

theorem stageEvent_within (within : staged.Within entities maxEntities)
    (event : ReplicationEvent I S D) : Expected (Staged.Within entities maxEntities)
      (stageEvent entities maxEntities applyDelta staged event) := by
  obtain ⟨counted, fits⟩ := within
  have counts : staged.entityCount = (staged.table entities).size := counted
  have contained (entity : I) : (staged.table entities).contains entity =
      ((staged.table entities)[entity]?).isSome := ExtTreeMap.contains_eq_isSome_getElem?
  have next (entity : I) (change : Option (VersionedState S)) (count : Nat)
      (same : count = (OrderedMap.commit (staged.table entities) entity change).size)
      (small : count ≤ maxEntities) :
      Staged.Within entities maxEntities ⟨staged.changes.insert entity change, count⟩ :=
    ⟨same.trans (congrArg _ (OrderedMap.overlay_insert entities staged.changes _ _).symm), small⟩
  cases event with
  | spawn =>
    simp only [stageEvent, stagedEntity_eq]
    split
    · split <;> simp [Expected, payloadMissing]
    · rename_i free
      simp only [not_or, Bool.not_eq_true, Nat.not_le] at free
      refine next _ _ _ ?_ (by omega)
      simp [OrderedMap.commit, ExtTreeMap.size_insert, contained, free.1, counts]
  | despawn =>
    simp only [stageEvent, stagedEntity_eq]
    split
    · simp [Expected, payloadMissing]
    · rename_i held
      refine next _ _ _ ?_ (by omega)
      simp only [Option.isNone_iff_eq_none, ← Option.isSome_iff_ne_none] at held
      simp [OrderedMap.commit, ExtTreeMap.size_erase, contained, held, counts]
  | update =>
    simp only [stageEvent, stagedEntity_eq]
    split
    · simp [Expected, payloadMissing]
    · rename_i held
      split
      · simp [Expected, payloadMissing]
      · split
        · simp [Expected, payloadMissing]
        · refine next _ _ _ ?_ fits
          simp [OrderedMap.commit, ExtTreeMap.size_insert, contained, held, counts]
  | keyframe =>
    simp only [stageEvent, stagedEntity_eq]
    split
    · simp [Expected, payloadMissing]
    · refine next _ _ _ ?_ ?_
      · simp only [OrderedMap.commit, ExtTreeMap.size_insert, contained, counts]
      · split <;> simp_all

theorem stageEvents_within (applyDelta : I → S → D → Option S)
    (within : staged.Within entities maxEntities) (events : List (ReplicationEvent I S D))
    (affected : ExtTreeSet I) : Expected (Staged.Within entities maxEntities)
      (stageEvents entities maxEntities applyDelta events affected staged) := by
  induction events generalizing affected staged with
  | nil => exact within
  | cons event _ ih =>
    have first := @stageEvent_within I S D _ _ _ entities maxEntities applyDelta _ within event
    simp only [stageEvents]
    split
    · simp [Expected, payloadMissing]
    · split
      · rename_i refused
        rwa [refused] at first
      · rename_i accepted
        rw [accepted] at first
        exact ih first _

end Staging

section Observing

variable {I S D : Type} {initial : SequenceWindow} {seen : Observation I S D}

/-- What the batches of a packet do to the window `initial`: the accepted payloads are
those of the numbers received since. -/
structure Follows (initial : SequenceWindow) (seen : Observation I S D) : Prop where
  window : seen.sequences.WellFormed
  reaches : seen.sequences.Reaches
  size : seen.sequences.reorderWindow = initial.reorderWindow
  below : ∀ number, seen.sequences.Received number → number < u64Max
  older : ∀ number, initial.Received number → seen.sequences.Received number
  accepted : ∀ number, number ∈ seen.accepted ↔
    seen.sequences.Received number ∧ ¬initial.Received number

theorem Follows.acknowledged_le (follows : Follows initial seen) :
    initial.acknowledged ≤ seen.sequences.acknowledged := by
  by_contra behind
  rcases follows.older (seen.sequences.acknowledged + 1) (.inl (by omega)) with low | waiting
  · omega
  · have gap := follows.window.gap _ waiting
    omega

theorem observeBatches_follows (config : ReplicationConfig)
    (batches : List (ReplicationBatch I S D)) (below : ∀ batch ∈ batches, batch.sequence < u64Max)
    (follows : Follows initial seen) :
    Expected (Follows initial) (observeBatches config batches seen) := by
  induction batches generalizing seen with
  | nil => exact follows
  | cons batch _ ih =>
    obtain ⟨first, later⟩ := forall_mem_cons.mp below
    simp only [observeBatches]
    split
    · simp [Expected, payloadMissing]
    · rcases SequenceWindow.observe_cases seen.sequences follows.window follows.reaches
        batch.sequence with ⟨error, observed⟩ | ⟨_, observed⟩ |
          ⟨next, observed, _, fresh, window, reaches, size, received⟩
      · simp [observed, Expected, payloadMissing]
      · simp only [observed]
        exact ih later { follows with }
      · simp only [observed]
        refine ih later ⟨window, reaches, size.trans follows.size, ?_, ?_, ?_⟩
        · intro number known
          rcases (received number).mp known with old | rfl
          · exact follows.below number old
          · exact first
        · intro number known
          exact (received number).mpr (.inl (follows.older number known))
        · intro number
          rw [ExtTreeMap.mem_insert, compare_eq_iff_eq, received, follows.accepted]
          constructor
          · rintro (rfl | ⟨known, new⟩)
            · exact ⟨.inr rfl, fun old => fresh (follows.older _ old)⟩
            · exact ⟨.inl known, new⟩
          · rintro ⟨known | rfl, new⟩
            · exact .inr ⟨known, new⟩
            · exact .inl rfl

end Observing

section Receiving

variable {I S D : Type} [Ord I] [TransOrd I] [LawfulEqOrd I]
variable {receiver : ReplicationReceiver I S D} {applyDelta : I → S → D → Option S}

theorem applySequences_within {tick : Nat} (sequences : List Nat) {progress : Application I S D}
    (distinct : sequences.Nodup)
    (present : ∀ number ∈ sequences, number ∈ progress.accepted ∨ number ∈ receiver.pending)
    (within : progress.staged.Within receiver.entities receiver.config.maxEntities)
    (ordered : tick ≤ progress.nextTick) :
    Expected (fun after => after.staged.Within receiver.entities receiver.config.maxEntities ∧
        tick ≤ after.nextTick ∧ ∀ number,
          number ∈ after.accepted ↔ number ∈ progress.accepted ∧ number ∉ sequences)
      (applySequences receiver applyDelta sequences progress) := by
  induction sequences generalizing progress with
  | nil => exact ⟨within, ordered, by simp⟩
  | cons sequence rest ih =>
    obtain ⟨absent, distinct⟩ := nodup_cons.mp distinct
    obtain ⟨first, later⟩ := forall_mem_cons.mp present
    simp only [applySequences]
    split
    · rename_i missing
      rw [Option.or_eq_none_iff] at missing
      simp [ExtTreeMap.mem_iff_isSome_getElem?, missing] at first
    · rename_i batch _
      have staging := stageEvents_within applyDelta within batch.events ∅
      split
      · simp [Expected, payloadMissing]
      · rename_i forward
        simp only [stageBatch]
        cases staged : stageEvents receiver.entities receiver.config.maxEntities applyDelta
            batch.events ∅ progress.staged with
        | error => rwa [staged] at staging
        | ok next =>
          rw [staged] at staging
          have erased (number : Nat) : number ∈ progress.accepted.erase sequence ↔
              sequence ≠ number ∧ number ∈ progress.accepted := by
            simp [ExtTreeMap.mem_erase]
          have remaining := @ih ⟨progress.accepted.erase sequence, next, batch.tick,
              progress.appliedBatches + 1, progress.appliedEvents + batch.events.length⟩ distinct
            (by
              intro number member
              have other : sequence ≠ number := fun same => absent (same ▸ member)
              simpa [erased, other] using later number member)
            staging (le_trans ordered (Nat.not_lt.mp forward))
          simpa [erased, and_left_comm, and_assoc, eq_comm, Except.map] using remaining

structure Bookkept (receiver : ReplicationReceiver I S D) : Prop where
  window : receiver.sequences.WellFormed
  reaches : receiver.sequences.Reaches
  size : receiver.sequences.reorderWindow = receiver.config.reorderWindow
  below : ∀ number, receiver.sequences.Received number → number < u64Max
  buffered : ∀ number, number ∈ receiver.pending ↔ number ∈ receiver.sequences.pending
  entities : receiver.entities.size ≤ receiver.config.maxEntities

omit [TransOrd I] [LawfulEqOrd I] in
theorem Bookkept.pending_size_le (bookkept : Bookkept receiver) :
    receiver.pending.size ≤ receiver.config.reorderWindow := by
  have inside : receiver.pending.keys ⊆ range' (receiver.sequences.acknowledged + 1)
      receiver.config.reorderWindow := by
    intro number member
    rw [ExtTreeMap.mem_keys, bookkept.buffered] at member
    have gap := bookkept.window.gap number member
    have bound := bookkept.reaches number member
    rw [bookkept.size] at bound
    rw [mem_range'_1]
    omega
  have distinct : receiver.pending.keys.Nodup := ExtTreeMap.nodup_keys
  simpa using (distinct.subperm inside).length_le

omit [LawfulEqOrd I] in
theorem Bookkept.store_buffered (bookkept : Bookkept receiver) {seen : Observation I S D}
    {progress : Application I S D} (follows : Follows receiver.sequences seen)
    (accepted : ∀ number, number ∈ progress.accepted ↔ number ∈ seen.accepted ∧
      number ∉ List.range' (receiver.sequences.acknowledged + 1)
        (seen.sequences.acknowledged + 1 - (receiver.sequences.acknowledged + 1))) (number : Nat) :
    number ∈ (receiver.store seen progress).pending ↔ number ∈ seen.sequences.pending := by
  have kept : number ∈ receiver.pending.filter
      (fun sequence _ => decide (seen.sequences.acknowledged < sequence)) ↔
        number ∈ receiver.pending ∧ seen.sequences.acknowledged < number := by
    simp [ExtTreeMap.mem_filter]
  have grows := follows.acknowledged_le
  have older := follows.older number
  have fresh : ¬receiver.sequences.Received number → receiver.sequences.acknowledged < number :=
    fun unknown => Nat.not_le.mp fun low => unknown (.inl low)
  simp only [ReplicationReceiver.store, ExtTreeMap.mem_union_iff, kept, accepted,
    pending_iff _ follows.window, follows.accepted, mem_range'_1, bookkept.buffered,
    pending_iff _ bookkept.window]
  grind

theorem Bookkept.receive (bookkept : Bookkept receiver) (packet : ReplicationPacket I S D)
    (applyDelta : I → S → D → Option S)
    (below : ∀ batch ∈ packet.batches, batch.sequence < u64Max) :
    let called := (ReplicationReceiver.receive packet applyDelta).call receiver
    called.1 ≠ .error payloadMissing ∧ Bookkept called.2 ∧
      called.2.config = receiver.config ∧ receiver.appliedTick ≤ called.2.appliedTick ∧
      receiver.sequences.acknowledged ≤ called.2.sequences.acknowledged := by
  have observing := observeBatches_follows receiver.config
    (packet.batches.insertionSort (fun left right => left.sequence ≤ right.sequence))
    (by simpa [mem_insertionSort] using below)
    (⟨bookkept.window, bookkept.reaches, rfl, bookkept.below, fun _ => id, by simp⟩ :
      Follows receiver.sequences ⟨receiver.sequences, ∅, 0⟩)
  simp only [ReplicationReceiver.receive, call_bind, call_get, call_ite, call_liftExcept, call_throw]
  split
  · exact ⟨by simp [payloadMissing], bookkept, rfl, le_rfl, le_rfl⟩
  · cases observed : observeBatches receiver.config _ _ with
    | error =>
      rw [observed] at observing
      exact ⟨by simpa [Expected] using observing, bookkept, rfl, le_rfl, le_rfl⟩
    | ok seen =>
      rw [observed] at observing
      have follows : Follows receiver.sequences seen := observing
      have first : saturatingAdd receiver.sequences.acknowledged 1 =
          receiver.sequences.acknowledged + 1 :=
        saturatingAdd_of_le (bookkept.below _ (.inl le_rfl))
      have applying := @applySequences_within _ _ _ _ _ _ receiver applyDelta receiver.appliedTick
        (range' (receiver.sequences.acknowledged + 1)
          (seen.sequences.acknowledged + 1 - (receiver.sequences.acknowledged + 1)))
        ⟨seen.accepted, ⟨∅, receiver.entities.size⟩, receiver.appliedTick, 0, 0⟩ nodup_range'
        (by
          intro number member
          rw [mem_range'_1] at member
          rw [follows.accepted, bookkept.buffered, pending_iff _ bookkept.window]
          by_cases old : receiver.sequences.Received number
          · exact .inr ⟨old, member.1⟩
          · exact .inl ⟨.inl (by omega), old⟩)
        ⟨by simp [Staged.Counted, Staged.table, OrderedMap.overlay_empty], bookkept.entities⟩ le_rfl
      simp only [first]
      cases applied : applySequences receiver applyDelta _ _ with
      | error =>
        rw [applied] at applying
        exact ⟨by simpa [Expected] using applying, bookkept, rfl, le_rfl, le_rfl⟩
      | ok progress =>
        rw [applied] at applying
        obtain ⟨⟨counted, fits⟩, tick, accepted⟩ := applying
        refine ⟨by simp, ⟨follows.window, follows.reaches, follows.size.trans bookkept.size,
          follows.below, bookkept.store_buffered follows accepted, ?_⟩, rfl, tick,
          follows.acknowledged_le⟩
        rw [counted] at fits
        exact fits

omit [TransOrd I] [LawfulEqOrd I] in
theorem bookkept_new {config : ReplicationConfig}
    (created : ReplicationReceiver.new config = .ok receiver) :
    Bookkept receiver ∧ receiver.config = config := by
  obtain ⟨window, made, rfl⟩ := new_ok created
  obtain ⟨wellFormed, size, acknowledged, empty⟩ := SequenceWindow.new_wellFormed made
  refine ⟨⟨wellFormed, by simp [SequenceWindow.Reaches, empty], size, ?_, by simp [empty],
    by simp⟩, rfl⟩
  rintro number (low | member)
  · simp only [acknowledged] at low
    exact Nat.lt_of_le_of_lt low (by decide)
  · simp [empty] at member

def receiveAll (receiver : ReplicationReceiver I S D)
    (calls : List (ReplicationPacket I S D × (I → S → D → Option S))) :
    ReplicationReceiver I S D :=
  calls.foldl (fun receiver called =>
    ((ReplicationReceiver.receive called.1 called.2).call receiver).2) receiver

theorem Bookkept.receiveAll (bookkept : Bookkept receiver)
    (calls : List (ReplicationPacket I S D × (I → S → D → Option S)))
    (below : ∀ called ∈ calls, ∀ batch ∈ called.1.batches, batch.sequence < u64Max) :
    Bookkept (receiveAll receiver calls) ∧ (receiveAll receiver calls).config = receiver.config := by
  induction calls generalizing receiver with
  | nil => exact ⟨bookkept, rfl⟩
  | cons called rest ih =>
    obtain ⟨first, later⟩ := forall_mem_cons.mp below
    obtain ⟨_, kept, same, _⟩ := bookkept.receive called.1 called.2 first
    obtain ⟨all, sameAll⟩ := ih kept later
    exact ⟨all, sameAll.trans same⟩

theorem bookkeeping_consistent (config : ReplicationConfig) (initial : ReplicationReceiver I S D)
    (created : ReplicationReceiver.new config = .ok initial)
    (calls : List (ReplicationPacket I S D × (I → S → D → Option S)))
    (below : ∀ called ∈ calls, ∀ batch ∈ called.1.batches, batch.sequence < u64Max) :
    let receiver := receiveAll initial calls
    (∀ number, number ∈ receiver.pending ↔ number ∈ receiver.sequences.pending) ∧
      receiver.entities.size ≤ config.maxEntities ∧
      receiver.pending.size ≤ config.reorderWindow ∧
      ∀ packet : ReplicationPacket I S D, (∀ batch ∈ packet.batches, batch.sequence < u64Max) →
        ∀ applyDelta : I → S → D → Option S,
        let called := (ReplicationReceiver.receive packet applyDelta).call receiver
        called.1 ≠ .error (.invalidPacket "contiguous batch payload is missing") ∧
          receiver.appliedTick ≤ called.2.appliedTick ∧
          receiver.acknowledgedSequence ≤ called.2.acknowledgedSequence := by
  obtain ⟨fresh, rfl⟩ := bookkept_new created
  obtain ⟨bookkept, same⟩ := fresh.receiveAll calls below
  refine ⟨bookkept.buffered, same ▸ bookkept.entities, same ▸ bookkept.pending_size_le, ?_⟩
  intro packet small applyDelta
  obtain ⟨expected, _, _, tick, grows⟩ := bookkept.receive packet applyDelta small
  exact ⟨expected, tick, grows⟩

def strayPacket : ReplicationPacket Nat Nat Nat :=
  { batches := [{ sequence := 2, tick := 1, events := [] }] }

theorem stray_packet_buffered :
    let receiver := receiveAll Link.sampleReceiver [(strayPacket, fun _ _ _ => none)]
    receiver.sequences.pending.toList = [2] ∧ receiver.pending.size ≤ 256 :=
  ⟨by decide +kernel, (bookkeeping_consistent .default Link.sampleReceiver rfl
    [(strayPacket, fun _ _ _ => none)] (by decide)).2.2.1⟩

end Receiving

end Elura.Replication
