import Elura.Basis.Numbered
import Elura.Replication.Receiver

/-!
A receiver that is fed with batches of one numbered log. Whatever subset of the
log arrives, in whatever order, the receiver holds the table of a prefix of the
log and buffers only batches of that log.
-/

namespace Elura.Replication

open Fallible List

open Std (ExtTreeMap ExtTreeSet TransOrd LawfulEqOrd)
open Netcode (SequenceWindow SequenceDisposition)

section Log

variable {I S D : Type} [Ord I] [TransOrd I]
variable {config : ReplicationConfig} {applyDelta : I → S → D → Option S}
  {log : List (ReplicationBatch I S D)} {index : Nat} {batch : ReplicationBatch I S D}

def lastTick (log : List (ReplicationBatch I S D)) : Nat :=
  (log.getLast?.map (·.tick)).getD 0

structure WellFormedLog (config : ReplicationConfig) (applyDelta : I → S → D → Option S)
    (log : List (ReplicationBatch I S D)) : Prop where
  numbered : log.map (·.sequence) = List.range' 1 log.length
  bounded : log.length < u64Max
  ticked : ∀ batch ∈ log, 0 < batch.tick
  ordered : log.Pairwise (fun left right => left.tick ≤ right.tick)
  sized : ∀ batch ∈ log, batch.events.length ≤ config.maxEventsPerBatch
  distinct : ∀ batch ∈ log, (batch.events.map ReplicationEvent.entity).Nodup
  admissible : AdmissibleRun config.maxEntities applyDelta ∅ (log.flatMap (·.events))

theorem wellFormedLog_nil (config : ReplicationConfig) (applyDelta : I → S → D → Option S) :
    WellFormedLog config applyDelta [] :=
  ⟨rfl, by simp [u64Max], by simp, .nil, by simp, by simp, trivial⟩

section

variable (wellFormed : WellFormedLog config applyDelta log)
include wellFormed

theorem WellFormedLog.sequence_eq
    (found : log[index]? = some batch) : batch.sequence = index + 1 := by
  rw [Numbered.number_eq wellFormed.numbered found, Nat.add_comm]

theorem WellFormedLog.mem_sequence
    (member : batch ∈ log) :
    0 < batch.sequence ∧ batch.sequence ≤ log.length ∧ log[batch.sequence - 1]? = some batch := by
  obtain ⟨lower, upper, place⟩ := Numbered.place wellFormed.numbered member
  exact ⟨lower, by omega, place⟩

theorem WellFormedLog.dropWhile_sequence_le
    {first last : Nat} (ordered : first ≤ last) :
    (log.drop first).dropWhile (·.sequence ≤ last) = log.drop last := by
  exact Numbered.dropWhile_le wellFormed.numbered (by omega)

end

omit [Ord I] [TransOrd I] in
theorem lastTick_append (log : List (ReplicationBatch I S D)) (batch : ReplicationBatch I S D) :
    lastTick (log ++ [batch]) = batch.tick := by
  simp [lastTick]

theorem WellFormedLog.lastTick_le (wellFormed : WellFormedLog config applyDelta log)
    (found : log[index]? = some batch) : lastTick (log.take index) ≤ batch.tick := by
  simp only [lastTick]
  cases last : (log.take index).getLast? with
  | none => simp
  | some =>
    have member := List.mem_of_getLast? last
    obtain ⟨position, place⟩ := List.mem_iff_getElem?.mp member
    obtain ⟨bound, _⟩ := List.getElem?_eq_some_iff.mp found
    obtain ⟨positionBound, value⟩ := List.getElem?_eq_some_iff.mp place
    rw [List.length_take] at positionBound
    have ordered := List.pairwise_iff_getElem.mp wellFormed.ordered position index (by omega)
      bound (by omega)
    simp only [List.getElem_take] at value
    simp_all

theorem WellFormedLog.next_admissible (wellFormed : WellFormedLog config applyDelta log)
    (found : log[index]? = some batch) :
    AdmissibleRun config.maxEntities applyDelta (applyBatches applyDelta (log.take index))
      batch.events := by
  have whole := wellFormed.admissible
  obtain ⟨bound, value⟩ := List.getElem?_eq_some_iff.mp found
  have split : log = log.take index ++ batch :: log.drop (index + 1) := by
    rw [← value, List.getElem_cons_drop, List.take_append_drop]
  rw [split, List.flatMap_append, List.flatMap_cons, admissibleRun_append,
    admissibleRun_append] at whole
  exact whole.2.1

/-- The payloads accepted since the window was `initial` are exactly the log
entries received since then. -/
def AcceptedExactly (log : List (ReplicationBatch I S D)) (initial : SequenceWindow)
    (seen : Observation I S D) : Prop :=
  ∀ number batch, seen.accepted[number]? = some batch ↔
    seen.sequences.Received number ∧ ¬initial.Received number ∧ log[number - 1]? = some batch

theorem observeBatches_spec (wellFormed : WellFormedLog config applyDelta log)
    (initial : SequenceWindow) (batches : List (ReplicationBatch I S D))
    (seen : Observation I S D) (fromLog : ∀ batch ∈ batches, batch ∈ log)
    (window : seen.sequences.WellFormed)
    (covered : log.length ≤ seen.sequences.acknowledged + seen.sequences.reorderWindow)
    (older : ∀ number, initial.Received number → seen.sequences.Received number)
    (exactly : AcceptedExactly log initial seen) :
    ∃ after, observeBatches config batches seen = .ok after ∧ after.sequences.WellFormed ∧
      after.sequences.reorderWindow = seen.sequences.reorderWindow ∧
      seen.sequences.acknowledged ≤ after.sequences.acknowledged ∧
      (∀ number, after.sequences.Received number ↔
        seen.sequences.Received number ∨ ∃ batch ∈ batches, batch.sequence = number) ∧
      AcceptedExactly log initial after := by
  induction batches generalizing seen with
  | nil => exact ⟨seen, rfl, window, rfl, le_rfl, by simp, exactly⟩
  | cons batch rest ih =>
    have member := fromLog batch (by simp)
    obtain ⟨positive, upper, place⟩ := wellFormed.mem_sequence member
    have bounded := wellFormed.bounded
    have valid : ¬(batch.tick = 0 ∨ config.maxEventsPerBatch < batch.events.length) := by
      have ticked := wellFormed.ticked batch member
      have sized := wellFormed.sized batch member
      omega
    obtain ⟨next, nextWindow, sameSize, grows, receivedNext, outcome⟩ :=
      SequenceWindow.observe_spec seen.sequences window batch.sequence positive
        (le_saturatingAdd (by omega) (by omega))
    have olderNext : ∀ number, initial.Received number → next.Received number :=
      fun number known => (receivedNext number).mpr (.inl (older number known))
    rcases outcome with ⟨known, unchanged, observed⟩ | ⟨unknown, observed⟩
    · obtain ⟨after, computed, afterWindow, afterSize, afterGrows, receivedAfter, exactAfter⟩ := ih
        { seen with duplicateBatches := seen.duplicateBatches + 1 }
        (fun later belongs => fromLog later (mem_cons_of_mem _ belongs))
        window covered older exactly
      refine ⟨after, ?_, afterWindow, afterSize, afterGrows, ?_, exactAfter⟩
      · simpa only [observeBatches, if_neg valid, observed] using computed
      · intro number
        have absorbed : batch.sequence = number → seen.sequences.Received number :=
          fun same => same ▸ known
        simp only [receivedAfter number, mem_cons, exists_eq_or_imp, ← or_assoc,
          or_iff_left_of_imp absorbed]
    · obtain ⟨after, computed, afterWindow, afterSize, afterGrows, receivedAfter, exactAfter⟩ := ih
        { seen with sequences := next, accepted := seen.accepted.insert batch.sequence batch }
        (fun later belongs => fromLog later (mem_cons_of_mem _ belongs))
        nextWindow (by simp only; omega) olderNext (by
          intro number payload
          simp only [ExtTreeMap.getElem?_insert, compare_eq_iff_eq, receivedNext number]
          by_cases same : batch.sequence = number
          · subst number
            simp only [or_true, true_and, place]
            exact ⟨fun equal => ⟨fun received => unknown (older _ received), equal⟩,
              fun facts => facts.2⟩
          · simp only [if_neg same, exactly number payload, Ne.symm same, or_false])
      refine ⟨after, ?_, afterWindow, by simpa [sameSize] using afterSize,
        le_trans grows afterGrows, ?_, exactAfter⟩
      · simpa only [observeBatches, if_neg valid, observed] using computed
      · intro number
        simp only [receivedAfter number, receivedNext number, mem_cons, exists_eq_or_imp, or_assoc,
          @eq_comm _ number]

theorem applySequences_spec [LawfulEqOrd I] (wellFormed : WellFormedLog config applyDelta log)
    (receiver : ReplicationReceiver I S D) (sameConfig : receiver.config = config)
    (count next : Nat) (progress : Application I S D) (within : next + count ≤ log.length)
    (payload : ∀ number, next < number → number ≤ next + count →
      (progress.accepted[number]?).or receiver.pending[number]? = log[number - 1]?)
    (counted : progress.staged.Counted receiver.entities)
    (table : progress.staged.table receiver.entities = applyBatches applyDelta (log.take next))
    (tick : progress.nextTick = lastTick (log.take next)) :
    ∃ after, applySequences receiver applyDelta (List.range' (next + 1) count) progress =
        .ok after ∧
      after.staged.table receiver.entities = applyBatches applyDelta (log.take (next + count)) ∧
      after.nextTick = lastTick (log.take (next + count)) ∧
      ∀ number, after.accepted[number]? =
        if next < number ∧ number ≤ next + count then none else progress.accepted[number]? := by
  induction count generalizing next progress with
  | zero =>
    refine ⟨progress, rfl, table, tick, ?_⟩
    intro number
    rw [if_neg (by omega)]
  | succ count ih =>
    have bound : next < log.length := by omega
    have found : log[next]? = some log[next] := getElem?_eq_getElem bound
    have available := payload (next + 1) (by omega) (by omega)
    rw [Nat.add_sub_cancel, found] at available
    have later : ¬log[next].tick < progress.nextTick := by
      rw [tick]
      exact Nat.not_lt.mpr (wellFormed.lastTick_le found)
    have run := wellFormed.next_admissible found
    rw [← table, ← sameConfig] at run
    obtain ⟨staged, stagedEq, meaning, stagedCount⟩ := stageEvents_spec receiver.entities
      receiver.config.maxEntities applyDelta log[next].events ∅ progress.staged counted run
      (wellFormed.distinct _ (getElem_mem bound)) (by simp)
    have batched : stageBatch receiver.entities receiver.config.maxEntities applyDelta
        progress.staged log[next] = .ok (log[next].events.length, staged) := by
      simp [stageBatch, stagedEq, Except.map]
    have prefixed : log.take (next + 1) = log.take next ++ [log[next]] := by
      rw [take_add_one, found]
      rfl
    obtain ⟨after, computed, tableAfter, tickAfter, acceptedAfter⟩ := ih (next + 1) {
        accepted := progress.accepted.erase (next + 1)
        staged
        nextTick := log[next].tick
        appliedBatches := progress.appliedBatches + 1
        appliedEvents := progress.appliedEvents + log[next].events.length }
      (by omega)
      (by
        intro number lower upper
        rw [ExtTreeMap.getElem?_erase, if_neg (by simp; omega)]
        exact payload number (by omega) (by omega))
      stagedCount
      (by rw [meaning, table, prefixed, applyBatches_append]; simp)
      (by rw [prefixed, lastTick_append])
    refine ⟨after, ?_, ?_, ?_, ?_⟩
    · simp only [range'_succ, applySequences, available, if_neg later, batched]
      exact computed
    · rw [tableAfter]
      congr 2
      omega
    · rw [tickAfter]
      congr 2
      omega
    · intro number
      rw [acceptedAfter number, ExtTreeMap.getElem?_erase]
      by_cases same : number = next + 1
      · subst number
        simp
      · have different : ¬compare (next + 1) number = .eq := by
          simp only [compare_eq_iff_eq]
          omega
        rw [if_neg different]
        simp only [show next + 1 < number ∧ number ≤ next + 1 + count ↔
          next < number ∧ number ≤ next + (count + 1) by omega]

variable {receiver : ReplicationReceiver I S D} {seen : Observation I S D}

structure Tracks (applyDelta : I → S → D → Option S) (log : List (ReplicationBatch I S D))
    (receiver : ReplicationReceiver I S D) : Prop where
  window : receiver.sequences.WellFormed
  windowSize : receiver.sequences.reorderWindow = receiver.config.reorderWindow
  issued : ∀ number, receiver.sequences.Received number → number ≤ log.length
  buffered : ∀ number batch, receiver.pending[number]? = some batch ↔
    number ∈ receiver.sequences.pending ∧ log[number - 1]? = some batch
  entities : receiver.entities =
    applyBatches applyDelta (log.take receiver.sequences.acknowledged)
  tick : receiver.appliedTick = lastTick (log.take receiver.sequences.acknowledged)

omit [TransOrd I] in
theorem new_ok (created : ReplicationReceiver.new config = .ok receiver) :
    ∃ window, SequenceWindow.new config.reorderWindow = .ok window ∧
      receiver = { config, sequences := window, pending := ∅, entities := ∅, appliedTick := 0 } := by
  obtain ⟨_, _, created⟩ := bind_ok created
  split at created
  · cases created
  · rename_i window made
    cases created
    exact ⟨window, made, rfl⟩

theorem tracks_new (applyDelta : I → S → D → Option S)
    (created : ReplicationReceiver.new config = .ok receiver) :
    receiver.config = config ∧ receiver.sequences.acknowledged = 0 ∧
      Tracks applyDelta [] receiver := by
  obtain ⟨window, made, rfl⟩ := new_ok created
  obtain ⟨wellFormed, size, acknowledged, empty⟩ := SequenceWindow.new_wellFormed made
  refine ⟨rfl, acknowledged, wellFormed, size, ?_, ?_, ?_, ?_⟩
  · rintro number (low | member)
    · rw [length_nil]
      exact le_of_le_of_eq low acknowledged
    · simp [empty] at member
  · simp
  · simp [applyBatches]
  · simp [lastTick]

theorem pending_iff (window : SequenceWindow) (wellFormed : window.WellFormed) (number : Nat) :
    number ∈ window.pending ↔ window.Received number ∧ window.acknowledged < number := by
  constructor
  · intro member
    have gap := wellFormed.gap number member
    exact ⟨.inr member, by omega⟩
  · rintro ⟨low | member, above⟩
    · omega
    · exact member

section

variable (tracks : Tracks applyDelta log receiver)
include tracks

theorem Tracks.acknowledged_le :
    receiver.sequences.acknowledged ≤ log.length :=
  tracks.issued _ (.inl le_rfl)

theorem Tracks.append (more : List (ReplicationBatch I S D)) :
    Tracks applyDelta (log ++ more) receiver := by
  have acknowledged := tracks.acknowledged_le
  have prefixed : (log ++ more).take receiver.sequences.acknowledged =
      log.take receiver.sequences.acknowledged := take_append_of_le_length acknowledged
  refine ⟨tracks.window, tracks.windowSize, ?_, ?_, ?_, ?_⟩
  · intro number received
    have bound := tracks.issued number received
    rw [length_append]
    omega
  · intro number batch
    rw [tracks.buffered number batch]
    refine and_congr_right (fun pending => ?_)
    have bound := tracks.issued number (.inr pending)
    have gap := tracks.window.gap number pending
    rw [getElem?_append_left (by omega)]
  · rw [prefixed]
    exact tracks.entities
  · rw [prefixed]
    exact tracks.tick

variable (exactly : AcceptedExactly log receiver.sequences seen)
variable (older : ∀ number, receiver.sequences.Received number → seen.sequences.Received number)
include exactly older

theorem payload_iff {number : Nat} (above : receiver.sequences.acknowledged < number)
    (batch : ReplicationBatch I S D) :
    (seen.accepted[number]?).or receiver.pending[number]? = some batch ↔
      seen.sequences.Received number ∧ log[number - 1]? = some batch := by
  have oldPending : number ∈ receiver.sequences.pending ↔ receiver.sequences.Received number := by
    rw [pending_iff _ tracks.window]
    exact ⟨fun facts => facts.1, fun known => ⟨known, above⟩⟩
  rw [Option.or_eq_some_iff, exactly number batch, tracks.buffered number batch, oldPending]
  by_cases known : receiver.sequences.Received number
  · have absent : seen.accepted[number]? = none := by
      cases found : seen.accepted[number]? with
      | none => rfl
      | some other => exact absurd known ((exactly number other).mp found).2.1
    simp [known, absent, older number known]
  · simp [known]

theorem store_buffered {progress : Application I S D} (window : seen.sequences.WellFormed)
    (grows : receiver.sequences.acknowledged ≤ seen.sequences.acknowledged)
    (accepted : ∀ number, progress.accepted[number]? =
      if receiver.sequences.acknowledged < number ∧ number ≤ seen.sequences.acknowledged
      then none else seen.accepted[number]?) (number : Nat) (batch : ReplicationBatch I S D) :
    (receiver.store seen progress).pending[number]? = some batch ↔
      number ∈ seen.sequences.pending ∧ log[number - 1]? = some batch := by
  simp only [ReplicationReceiver.store, ExtTreeMap.getElem?_union, accepted number, pending_iff _
    window]
  by_cases applied : number ≤ seen.sequences.acknowledged
  · have removed : (if receiver.sequences.acknowledged < number ∧
        number ≤ seen.sequences.acknowledged then none else seen.accepted[number]?) = none := by
      split
      · rfl
      · cases found : seen.accepted[number]? with
        | none => rfl
        | some other =>
          have fresh := ((exactly number other).mp found).2.1
          exact absurd (.inl (by omega)) fresh
    simp [removed, Nat.not_lt.mpr applied]
  · have above : seen.sequences.acknowledged < number := by omega
    have kept : ¬(receiver.sequences.acknowledged < number ∧
        number ≤ seen.sequences.acknowledged) := by omega
    have payload := payload_iff tracks exactly older (by omega : _ < number) batch
    simpa [above] using payload

end

/-- Any selection of log entries is received without an error, and afterwards the
receiver still holds a prefix of the log and has all delivered entries. -/
theorem receive_spec [LawfulEqOrd I] (wellFormed : WellFormedLog config applyDelta log)
    (receiver : ReplicationReceiver I S D) (sameConfig : receiver.config = config)
    (tracks : Tracks applyDelta log receiver) (packet : ReplicationPacket I S D)
    (short : packet.batches.length ≤ config.redundancy)
    (fromLog : ∀ batch ∈ packet.batches, batch ∈ log)
    (covered : log.length ≤ receiver.sequences.acknowledged + config.reorderWindow) :
    ∃ report after, (ReplicationReceiver.receive packet applyDelta).call receiver =
        (.ok report, after) ∧
      after.config = config ∧ Tracks applyDelta log after ∧
      receiver.sequences.acknowledged ≤ after.sequences.acknowledged ∧
      report.acknowledgement =
        { acknowledgedSequence := after.sequences.acknowledged
          appliedTick := after.appliedTick } ∧
      ∀ batch ∈ packet.batches, after.sequences.Received batch.sequence := by
  have acknowledged := tracks.acknowledged_le
  have bounded := wellFormed.bounded
  have sortedMem (batch : ReplicationBatch I S D) : batch ∈ packet.batches.insertionSort
      (fun left right => left.sequence ≤ right.sequence) ↔ batch ∈ packet.batches :=
    (perm_insertionSort _ _).mem_iff
  obtain ⟨seen, observed, window, windowSize, grows, received, exactly⟩ :=
    observeBatches_spec wellFormed receiver.sequences
      (packet.batches.insertionSort (fun left right => left.sequence ≤ right.sequence))
      { sequences := receiver.sequences, accepted := ∅, duplicateBatches := 0 }
      (fun batch member => fromLog batch ((sortedMem batch).mp member)) tracks.window
      (by simpa [tracks.windowSize, sameConfig] using covered) (fun _ known => known)
      (by
        intro number batch
        simp only [ExtTreeMap.getElem?_empty, reduceCtorEq, false_iff]
        exact fun facts => facts.2.1 facts.1)
  simp only at windowSize grows received
  have issued (number : Nat) (known : seen.sequences.Received number) : number ≤ log.length := by
    rcases (received number).mp known with old | ⟨batch, member, rfl⟩
    · exact tracks.issued number old
    · exact (wellFormed.mem_sequence (fromLog batch ((sortedMem batch).mp member))).2.1
  have newBound := issued _ (.inl (le_refl seen.sequences.acknowledged))
  have older (number : Nat) (known : receiver.sequences.Received number) :
      seen.sequences.Received number := (received number).mpr (.inl known)
  have counted : (Staged.mk ∅ receiver.entities.size : Staged I S).Counted receiver.entities := by
    simp [Staged.Counted, Staged.table, OrderedMap.overlay_empty]
  obtain ⟨progress, applied, table, tick, accepted⟩ := applySequences_spec wellFormed receiver
    sameConfig (seen.sequences.acknowledged - receiver.sequences.acknowledged)
    receiver.sequences.acknowledged
    { accepted := seen.accepted
      staged := { changes := ∅, entityCount := receiver.entities.size }
      nextTick := receiver.appliedTick
      appliedBatches := 0
      appliedEvents := 0 }
    (by omega)
    (by
      intro number above below
      have inside : number - 1 < log.length := by omega
      rw [getElem?_eq_getElem inside, payload_iff tracks exactly older above]
      exact ⟨.inl (by omega), getElem?_eq_getElem inside⟩)
    counted
    (by simpa [Staged.table, OrderedMap.overlay_empty] using tracks.entities)
    tracks.tick
  rw [Nat.add_sub_cancel' grows] at table tick
  simp only [Nat.add_sub_cancel' grows] at accepted
  rw [← sameConfig] at observed
  have fits : ¬receiver.config.redundancy < packet.batches.length := by
    rw [sameConfig]
    omega
  have first : saturatingAdd receiver.sequences.acknowledged 1 =
      receiver.sequences.acknowledged + 1 := saturatingAdd_of_le (by omega)
  refine ⟨_, receiver.store seen progress, by
    simp only [ReplicationReceiver.receive, call_bind, call_get, call_liftExcept, if_neg fits,
      observed, first, Nat.add_sub_add_right, applied]; rfl, sameConfig, ?_, grows, rfl, ?_⟩
  · exact ⟨window, windowSize.trans tracks.windowSize, issued,
      store_buffered tracks exactly older window grows accepted, table, tick⟩
  · intro batch member
    exact (received batch.sequence).mpr (.inr ⟨batch, (sortedMem batch).mpr member, rfl⟩)

end Log

end Elura.Replication
