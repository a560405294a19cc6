import Elura.Basis.OrderedMap
import Elura.Replication.Protocol

/-!
`ReplicationSender`: reconciles a visible entity set into events, splits them into numbered
batches and keeps the batches until they are acknowledged.
-/

namespace Elura.Replication

open Fallible List

open Std (ExtTreeMap TransOrd LawfulEqOrd)

structure ReplicationSender (I S D : Type) [Ord I] where
  config : ReplicationConfig
  nextSequence : Nat
  acknowledgedSequence : Nat
  lastTick : Nat
  projected : EntityTable I S
  pending : List (ReplicationBatch I S D)
  keyframesForced : Bool

section Definitions

variable {I S D : Type} [Ord I] [TransOrd I]

def collectVisible : List (I × VersionedState S) → EntityTable I S →
    Except ReplicationError (EntityTable I S)
  | [], desired => .ok desired
  | (entity, state) :: rest, desired =>
    if entity ∈ desired then
      .error (.invalidPacket "visible state contains a duplicate entity")
    else collectVisible rest (desired.insert entity state)

def despawnEvents (projected desired : EntityTable I S) : List (ReplicationEvent I S D) :=
  (projected.keys.filter (fun entity => entity ∉ desired)).map .despawn

def keyframeEvent (entity : I) (current : VersionedState S) : ReplicationEvent I S D :=
  .keyframe entity current.version current.predictionKey current.state

def visibleEvent (projected : EntityTable I S) (force : Bool)
    (delta : I → VersionedState S → VersionedState S → Option D)
    (entity : I) (current : VersionedState S) :
    Except ReplicationError (Option (ReplicationEvent I S D)) :=
  match projected[entity]? with
  | none => .ok (some (.spawn entity current.version current.predictionKey current.state))
  | some previous =>
    if current.version < previous.version then .error .versionRegression
    else if force then .ok (some (keyframeEvent entity current))
    else if current.version ≠ previous.version then
      match delta entity previous current with
      | some encoded =>
        .ok (some (.update entity previous.version current.version encoded))
      | none => .ok (some (keyframeEvent entity current))
    else .ok none

def visibleEvents (projected : EntityTable I S) (force : Bool)
    (delta : I → VersionedState S → VersionedState S → Option D) :
    List (I × VersionedState S) → Except ReplicationError (List (ReplicationEvent I S D))
  | [] => .ok []
  | (entity, current) :: rest =>
    match visibleEvent projected force delta entity current with
    | .error error => .error error
    | .ok event =>
      match visibleEvents projected force delta rest with
      | .error error => .error error
      | .ok events => .ok (event.toList ++ events)

def divCeil (dividend divisor : Nat) : Nat := (dividend + divisor - 1) / divisor

/-- The `push_back` loop of `update`: one batch for each sequence in
`sequence..sequence + count`. -/
def queueBatches (tick size : Nat) : Nat → Nat → List (ReplicationEvent I S D) →
    List (ReplicationBatch I S D)
  | _, 0, _ => []
  | sequence, count + 1, events =>
    { sequence, tick, events := events.take size } ::
      queueBatches tick size (sequence + 1) count (events.drop size)

namespace ReplicationSender

def new (config : ReplicationConfig) : Except ReplicationError (ReplicationSender I S D) := do
  config.validate
  return {
    config
    nextSequence := 1
    acknowledgedSequence := 0
    lastTick := 0
    projected := ∅
    pending := []
    keyframesForced := false
  }

def update (tick : Nat) (visible : List (I × VersionedState S))
    (delta : I → VersionedState S → VersionedState S → Option D) :
    Fallible (ReplicationSender I S D) ReplicationError Nat := do
  let sender ← get
  if tick = 0 ∨ tick ≤ sender.lastTick then
    throw (.invalidOrder "update Tick must increase and be positive")
  let desired ← liftM (collectVisible visible ∅)
  if sender.config.maxEntities < desired.size then
    throw .entityLimitExceeded
  let changed ← liftM
    (visibleEvents sender.projected sender.keyframesForced delta desired.toList)
  let events := despawnEvents sender.projected desired ++ changed
  let batchCount := divCeil events.length sender.config.maxEventsPerBatch
  if sender.config.historyCapacity < saturatingAdd sender.pending.length batchCount then
    throw .historyFull
  match checkedAdd sender.nextSequence batchCount with
  | none => throw .sequenceExhausted
  | some nextSequence =>
    set { sender with
      pending := sender.pending ++ queueBatches tick sender.config.maxEventsPerBatch
        sender.nextSequence batchCount events
      nextSequence
      lastTick := tick
      projected := desired
      keyframesForced := false }
    return batchCount

def acknowledge (acknowledgement : ReplicationAck) :
    Fallible (ReplicationSender I S D) ReplicationError Nat := do
  let sender ← get
  if sender.nextSequence - 1 < acknowledgement.acknowledgedSequence then
    throw .invalidAcknowledgement
  else if acknowledgement.acknowledgedSequence ≤ sender.acknowledgedSequence then
    return 0
  else
    match sender.pending.find? (·.sequence = acknowledgement.acknowledgedSequence) with
    | none => throw .invalidAcknowledgement
    | some batch =>
      if batch.tick ≠ acknowledgement.appliedTick then
        throw .invalidAcknowledgement
      else
        let pending := sender.pending.dropWhile
          (·.sequence ≤ acknowledgement.acknowledgedSequence)
        set { sender with
          acknowledgedSequence := acknowledgement.acknowledgedSequence
          pending }
        return sender.pending.length - pending.length

def forceKeyframes (sender : ReplicationSender I S D) : ReplicationSender I S D :=
  { sender with keyframesForced := true }

def selectedIndices (length redundancy : Nat) : Std.ExtTreeSet Nat :=
  let newest := redundancy - 1
  (List.range' (length - newest) (length - (length - newest))).foldl
    (fun selected index => selected.insert index) ((∅ : Std.ExtTreeSet Nat).insert 0)

def packet (sender : ReplicationSender I S D) : ReplicationPacket I S D :=
  if sender.pending.length ≤ sender.config.redundancy then
    { batches := sender.pending }
  else
    { batches := (selectedIndices sender.pending.length sender.config.redundancy).toList.filterMap
        (fun index => sender.pending[index]?) }

end ReplicationSender

end Definitions

section Reconciliation

variable {I S D : Type} [Ord I] [TransOrd I] [LawfulEqOrd I]
variable {projected table : EntityTable I S} {force : Bool}
  {delta : I → VersionedState S → VersionedState S → Option D} {entity : I}
  {current : VersionedState S} {maxEntities : Nat} {applyDelta : I → S → D → Option S}

/-- The contract of an update for one visible entity: an unchanged version means
an unchanged state, and an encoded delta reconstructs the current state. -/
def LawfulEntity (applyDelta : I → S → D → Option S) (projected : EntityTable I S)
    (delta : I → VersionedState S → VersionedState S → Option D)
    (entity : I) (current : VersionedState S) : Prop :=
  ∀ previous, projected[entity]? = some previous →
    (current.version = previous.version →
      current.state = previous.state ∧ current.predictionKey = previous.predictionKey) ∧
    ∀ encoded, delta entity previous current = some encoded →
      previous.predictionKey = current.predictionKey ∧
        applyDelta entity previous.state encoded = some current.state

def LawfulUpdate (applyDelta : I → S → D → Option S) (projected : EntityTable I S)
    (visible : List (I × VersionedState S))
    (delta : I → VersionedState S → VersionedState S → Option D) : Prop :=
  ∀ entity current, (entity, current) ∈ visible →
    LawfulEntity applyDelta projected delta entity current

theorem collectVisible_mem (visible : List (I × VersionedState S))
    (initial desired : EntityTable I S) (collected : collectVisible visible initial = .ok desired)
    (entity : I) (state : VersionedState S) (found : desired[entity]? = some state) :
    initial[entity]? = some state ∨ (entity, state) ∈ visible := by
  induction visible generalizing initial with
  | nil =>
    simp only [collectVisible, Except.ok.injEq] at collected
    subst desired
    exact .inl found
  | cons pair rest ih =>
    obtain ⟨first, value⟩ := pair
    simp only [collectVisible] at collected
    split at collected
    · simp at collected
    · rcases ih _ collected with old | later
      · rw [ExtTreeMap.getElem?_insert] at old
        split at old
        · rename_i same
          have equal : first = entity := by simpa using same
          simp only [Option.some.injEq] at old
          subst first value
          exact .inr (by simp)
        · exact .inl old
      · exact .inr (mem_cons_of_mem _ later)

theorem despawn_run (maxEntities : Nat) (applyDelta : I → S → D → Option S)
    (entities : List I) (table : EntityTable I S) (distinct : entities.Nodup)
    (present : ∀ entity ∈ entities, entity ∈ table) :
    AdmissibleRun maxEntities applyDelta table (entities.map .despawn) ∧
      (∀ entity ∈ entities, entity ∉ applyEvents applyDelta table (entities.map .despawn)) ∧
      ∀ entity, entity ∉ entities →
        (applyEvents applyDelta table (entities.map .despawn))[entity]? = table[entity]? := by
  induction entities generalizing table with
  | nil => simp [AdmissibleRun]
  | cons first rest ih =>
    rw [nodup_cons] at distinct
    have still : ∀ entity ∈ rest, entity ∈ table.erase first := by
      intro entity member
      rw [ExtTreeMap.mem_erase]
      refine ⟨?_, present entity (mem_cons_of_mem _ member)⟩
      have different : first ≠ entity := by
        intro same
        exact distinct.1 (same ▸ member)
      simpa using different
    obtain ⟨run, removed, kept⟩ := ih (table.erase first) distinct.2 still
    simp only [map_cons, AdmissibleRun, applyEvents_cons, applyEvent, Admissible]
    refine ⟨⟨?_, run⟩, ?_, ?_⟩
    · simpa using present first (by simp)
    · intro entity member
      rcases mem_cons.mp member with rfl | later
      · intro found
        rw [ExtTreeMap.mem_iff_isSome_getElem?, kept entity distinct.1] at found
        simp at found
      · exact removed entity later
    · intro entity absent
      simp only [mem_cons, not_or] at absent
      rw [kept entity absent.2, ExtTreeMap.getElem?_erase, if_neg]
      simpa using Ne.symm absent.1

theorem despawnEvents_spec (maxEntities : Nat) (applyDelta : I → S → D → Option S)
    (projected desired : EntityTable I S) :
    AdmissibleRun maxEntities applyDelta projected (despawnEvents projected desired) ∧
      ∀ entity, (applyEvents applyDelta projected (despawnEvents projected desired))[entity]? =
        if entity ∈ desired then projected[entity]? else none := by
  obtain ⟨run, removed, kept⟩ := despawn_run maxEntities applyDelta
    (projected.keys.filter (fun entity => entity ∉ desired)) projected
    (ExtTreeMap.nodup_keys.filter _) (by simp +contextual)
  refine ⟨run, fun entity => ?_⟩
  split
  · rename_i visible
    exact kept entity (by simp [visible])
  · rename_i invisible
    by_cases known : entity ∈ projected
    · exact ExtTreeMap.getElem?_eq_none (removed entity (by simp [known, invisible]))
    · exact (kept entity (by simp [known])).trans (ExtTreeMap.getElem?_eq_none known)

omit [LawfulEqOrd I] in
theorem visibleEvent_entity {event : Option (ReplicationEvent I S D)}
    (produced : visibleEvent projected force delta entity current = .ok event) :
    ∀ member ∈ event.toList, member.entity = entity := by
  simp only [visibleEvent] at produced
  repeat' split at produced
  all_goals
    first
    | (simp only [Except.ok.injEq] at produced
       subst event
       simp [ReplicationEvent.entity, keyframeEvent])
    | simp at produced

structure Sets (maxEntities : Nat) (applyDelta : I → S → D → Option S) (table : EntityTable I S)
    (entity : I) (current : VersionedState S) (events : List (ReplicationEvent I S D)) : Prop where
  run : AdmissibleRun maxEntities applyDelta table events
  stored : (applyEvents applyDelta table events)[entity]? = some current
  others : ∀ other, other ≠ entity →
    (applyEvents applyDelta table events)[other]? = table[other]?

theorem sets_of_insert {event : ReplicationEvent I S D}
    (admissible : Admissible maxEntities applyDelta table event)
    (inserted : applyEvent applyDelta table event = table.insert entity current) :
    Sets maxEntities applyDelta table entity current [event] := by
  refine ⟨⟨admissible, trivial⟩, ?_, fun other different => ?_⟩
  · rw [applyEvents_cons, applyEvents_nil, inserted, ExtTreeMap.getElem?_insert_self]
  · rw [applyEvents_cons, applyEvents_nil, inserted, ExtTreeMap.getElem?_insert, if_neg]
    simpa using Ne.symm different

theorem sets_keyframe {previous : VersionedState S} (present : table[entity]? = some previous)
    (current : VersionedState S) :
    Sets maxEntities applyDelta table entity current [keyframeEvent entity current] :=
  sets_of_insert (.inl (by simp [present])) rfl

theorem visibleEvent_sets {desired : EntityTable I S} {event : Option (ReplicationEvent I S D)}
    (produced : visibleEvent projected force delta entity current = .ok event)
    (lawful : LawfulEntity applyDelta projected delta entity current)
    (untouched : table[entity]? = projected[entity]?)
    (inside : ∀ other, other ∈ table → other ∈ desired) (visible : entity ∈ desired)
    (limit : desired.size ≤ maxEntities) :
    Sets maxEntities applyDelta table entity current event.toList := by
  simp only [visibleEvent] at produced
  cases known : projected[entity]? with
  | none =>
    simp only [known, Except.ok.injEq] at produced
    subst event
    have absent : table[entity]? = none := by rw [untouched, known]
    have grown := OrderedMap.size_lt_of_subset table desired inside visible (by simpa using absent)
    exact sets_of_insert ⟨absent, by omega⟩ rfl
  | some previous =>
    obtain ⟨sameVersion, reconstructs⟩ := lawful previous known
    have present : table[entity]? = some previous := by rw [untouched, known]
    simp only [known] at produced
    split_ifs at produced with older forced changed
    · cases produced
      exact sets_keyframe present current
    · cases encoded : delta entity previous current with
      | none =>
        simp only [encoded, Except.ok.injEq] at produced
        subst event
        exact sets_keyframe present current
      | some code =>
        simp only [encoded, Except.ok.injEq] at produced
        subst event
        obtain ⟨sameKey, decoded⟩ := reconstructs code encoded
        refine sets_of_insert ⟨by omega, previous, present, rfl, by simp [decoded]⟩ ?_
        simp only [applyEvent, present, decoded, sameKey]
    · cases produced
      obtain ⟨sameState, sameKey⟩ := sameVersion (by omega)
      have equal : previous = current := by
        cases current
        cases previous
        simp_all
      exact ⟨trivial, present.trans (congrArg some equal), fun _ _ => rfl⟩

omit [LawfulEqOrd I] in
theorem visibleEvents_cons {rest : List (I × VersionedState S)}
    {events : List (ReplicationEvent I S D)}
    (produced : visibleEvents projected force delta ((entity, current) :: rest) = .ok events) :
    ∃ event tail, visibleEvent projected force delta entity current = .ok event ∧
      visibleEvents projected force delta rest = .ok tail ∧ events = event.toList ++ tail := by
  simp only [visibleEvents] at produced
  cases first : visibleEvent projected force delta entity current with
  | error => simp [first] at produced
  | ok event =>
    cases later : visibleEvents projected force delta rest with
    | error => simp [first, later] at produced
    | ok tail =>
      simp only [first, later, Except.ok.injEq] at produced
      exact ⟨event, tail, rfl, rfl, produced.symm⟩

theorem visibleEvents_run {desired : EntityTable I S} (limit : desired.size ≤ maxEntities)
    {rest : List (I × VersionedState S)} {events : List (ReplicationEvent I S D)}
    (produced : visibleEvents projected force delta rest = .ok events)
    (distinct : rest.Pairwise (fun left right => left.1 ≠ right.1))
    (facts : ∀ pair ∈ rest, pair.1 ∈ desired ∧
      LawfulEntity applyDelta projected delta pair.1 pair.2 ∧
      table[pair.1]? = projected[pair.1]?)
    (inside : ∀ entity, entity ∈ table → entity ∈ desired) :
    AdmissibleRun maxEntities applyDelta table events ∧
      (∀ pair ∈ rest, (applyEvents applyDelta table events)[pair.1]? = some pair.2) ∧
      ∀ entity, (∀ pair ∈ rest, pair.1 ≠ entity) →
        (applyEvents applyDelta table events)[entity]? = table[entity]? := by
  induction rest generalizing table events with
  | nil =>
    simp only [visibleEvents, Except.ok.injEq] at produced
    subst events
    simp [AdmissibleRun]
  | cons pair _ ih =>
    obtain ⟨entity, current⟩ := pair
    rw [pairwise_cons] at distinct
    obtain ⟨visible, lawful, untouched⟩ := facts (entity, current) (by simp)
    obtain ⟨event, tail, first, later, rfl⟩ := visibleEvents_cons produced
    have sets := visibleEvent_sets first lawful untouched inside visible limit
    obtain ⟨runRest, storedRest, othersRest⟩ :=
      ih later distinct.2
        (by
          intro pair member
          obtain ⟨known, contract, same⟩ := facts pair (mem_cons_of_mem _ member)
          refine ⟨known, contract, ?_⟩
          rw [sets.others pair.1 (Ne.symm (distinct.1 pair member)), same])
        (by
          intro other member
          by_cases same : other = entity
          · exact same ▸ visible
          · rw [ExtTreeMap.mem_iff_isSome_getElem?, sets.others other same] at member
            exact inside other (ExtTreeMap.mem_iff_isSome_getElem?.mpr member))
    rw [admissibleRun_append, applyEvents_append]
    refine ⟨⟨sets.run, runRest⟩, ?_, ?_⟩
    · intro pair member
      rcases mem_cons.mp member with rfl | belongs
      · rw [othersRest entity (fun pair member => Ne.symm (distinct.1 pair member))]
        exact sets.stored
      · exact storedRest pair belongs
    · intro other absent
      rw [othersRest other (fun pair member => absent pair (mem_cons_of_mem _ member)),
        sets.others other (Ne.symm (absent (entity, current) (by simp)))]

omit [LawfulEqOrd I] in
theorem visibleEvents_entities {rest : List (I × VersionedState S)}
    {events : List (ReplicationEvent I S D)}
    (produced : visibleEvents projected force delta rest = .ok events) :
    (events.map (·.entity)).Sublist (rest.map Prod.fst) := by
  induction rest generalizing events with
  | nil =>
    simp only [visibleEvents, Except.ok.injEq] at produced
    simp [← produced]
  | cons pair _ ih =>
    obtain ⟨entity, current⟩ := pair
    obtain ⟨event, tail, first, later, rfl⟩ := visibleEvents_cons produced
    have named := visibleEvent_entity first
    cases event with
    | none => exact (ih later).trans (sublist_cons_self _ _)
    | some single =>
      have same : single.entity = entity := named single (by simp)
      simpa [same] using ih later

theorem reconcile_entities {desired : EntityTable I S} {changed : List (ReplicationEvent I S D)}
    (produced : visibleEvents projected force delta desired.toList = .ok changed) :
    ((despawnEvents projected desired ++ changed).map ReplicationEvent.entity).Nodup := by
  have names := visibleEvents_entities produced
  rw [ExtTreeMap.map_fst_toList_eq_keys] at names
  have despawned : (despawnEvents (D := D) projected desired).map ReplicationEvent.entity =
      projected.keys.filter (fun entity => entity ∉ desired) := by
    simp [despawnEvents, Function.comp_def, ReplicationEvent.entity]
  rw [map_append, nodup_append, despawned]
  refine ⟨ExtTreeMap.nodup_keys.filter _, names.nodup ExtTreeMap.nodup_keys, ?_⟩
  rintro left gone right visible rfl
  have invisible : left ∉ desired := by simpa using (mem_filter.mp gone).2
  exact invisible (ExtTreeMap.mem_keys.mp (names.subset visible))

/-- The events of one update turn the projected table into the visible one, every
event is acceptable in its place, and no entity is changed twice. -/
theorem reconcile_spec {desired : EntityTable I S} {changed : List (ReplicationEvent I S D)}
    (produced : visibleEvents projected force delta desired.toList = .ok changed)
    (lawful : ∀ entity current, desired[entity]? = some current →
      LawfulEntity applyDelta projected delta entity current)
    (limit : desired.size ≤ maxEntities) :
    AdmissibleRun maxEntities applyDelta projected (despawnEvents projected desired ++ changed) ∧
      applyEvents applyDelta projected (despawnEvents projected desired ++ changed) = desired ∧
      ((despawnEvents projected desired ++ changed).map ReplicationEvent.entity).Nodup := by
  obtain ⟨runGone, remaining⟩ := despawnEvents_spec maxEntities applyDelta projected desired
  have distinct : desired.toList.Pairwise (fun left right => left.1 ≠ right.1) :=
    ExtTreeMap.distinct_keys_toList.imp (by simp)
  have stored (pair : I × VersionedState S) (member : pair ∈ desired.toList) :
      desired[pair.1]? = some pair.2 := ExtTreeMap.mem_toList_iff_getElem?_eq_some.mp member
  have visible (pair : I × VersionedState S) (member : pair ∈ desired.toList) :
      pair.1 ∈ desired := by
    rw [ExtTreeMap.mem_iff_isSome_getElem?, stored pair member]
    rfl
  obtain ⟨runVisible, present, others⟩ := visibleEvents_run limit produced distinct
    (by
      intro pair member
      refine ⟨visible pair member, lawful pair.1 pair.2 (stored pair member), ?_⟩
      rw [remaining, if_pos (visible pair member)])
    (by
      intro entity member
      by_contra invisible
      rw [ExtTreeMap.mem_iff_isSome_getElem?, remaining, if_neg invisible] at member
      cases member)
  refine ⟨?_, ?_, reconcile_entities produced⟩
  · rw [admissibleRun_append]
    exact ⟨runGone, runVisible⟩
  · rw [applyEvents_append]
    apply ExtTreeMap.ext_getElem?
    intro entity
    cases found : desired[entity]? with
    | some current =>
      exact present (entity, current) (ExtTreeMap.mem_toList_iff_getElem?_eq_some.mpr found)
    | none =>
      have invisible : entity ∉ desired := by simpa using found
      have unlisted : ∀ pair ∈ desired.toList, pair.1 ≠ entity := by
        rintro pair member rfl
        exact invisible (visible pair member)
      rw [others entity unlisted, remaining, if_neg invisible]

end Reconciliation

section Batching

variable {I S D : Type}

theorem le_divCeil_mul (dividend divisor : Nat) (positive : 0 < divisor) :
    dividend ≤ divCeil dividend divisor * divisor := by
  have split := Nat.div_add_mod (dividend + divisor - 1) divisor
  have small := Nat.mod_lt (dividend + divisor - 1) positive
  rw [Nat.mul_comm] at split
  simp only [divCeil]
  omega

theorem queueBatches_events (tick size sequence count : Nat)
    (events : List (ReplicationEvent I S D)) (enough : events.length ≤ count * size) :
    (queueBatches tick size sequence count events).flatMap (·.events) = events := by
  induction count generalizing sequence events with
  | zero =>
    have empty : events = [] := by simpa using enough
    simp [queueBatches, empty]
  | succ _ ih =>
    have rest := ih (sequence + 1) (events.drop size) (by
      rw [length_drop]
      rw [Nat.add_mul] at enough
      omega)
    simp [queueBatches, rest]

theorem queueBatches_sequences (tick size sequence count : Nat)
    (events : List (ReplicationEvent I S D)) :
    (queueBatches tick size sequence count events).map (·.sequence) =
      List.range' sequence count := by
  induction count generalizing sequence events with
  | zero => rfl
  | succ _ ih => simp [queueBatches, ih, range'_succ]

@[simp] theorem queueBatches_length (tick size sequence count : Nat)
    (events : List (ReplicationEvent I S D)) :
    (queueBatches tick size sequence count events).length = count := by
  have mapped := congrArg length (queueBatches_sequences tick size sequence count events)
  simpa using mapped

theorem queueBatches_mem (tick size sequence count : Nat)
    (events : List (ReplicationEvent I S D)) (batch : ReplicationBatch I S D)
    (member : batch ∈ queueBatches tick size sequence count events) :
    batch.tick = tick ∧ batch.events.length ≤ size ∧ batch.events.Sublist events := by
  induction count generalizing sequence events with
  | zero => simp [queueBatches] at member
  | succ _ ih =>
    rcases mem_cons.mp member with rfl | later
    · exact ⟨rfl, length_take_le _ _, take_sublist _ _⟩
    · obtain ⟨sameTick, bounded, sublist⟩ := ih (sequence + 1) (events.drop size) later
      exact ⟨sameTick, bounded, sublist.trans (drop_sublist _ _)⟩

end Batching

section Operations

variable {I S D : Type} [Ord I]

namespace ReplicationSender

theorem update_ok [TransOrd I] {sender after : ReplicationSender I S D} {tick count : Nat}
    {visible : List (I × VersionedState S)}
    {delta : I → VersionedState S → VersionedState S → Option D}
    (succeeded : (update tick visible delta).call sender = (.ok count, after)) :
    ∃ desired changed, 0 < tick ∧ sender.lastTick < tick ∧
      collectVisible visible ∅ = .ok desired ∧ desired.size ≤ sender.config.maxEntities ∧
      visibleEvents sender.projected sender.keyframesForced delta desired.toList = .ok changed ∧
      count = divCeil (despawnEvents sender.projected desired ++ changed).length
        sender.config.maxEventsPerBatch ∧
      saturatingAdd sender.pending.length count ≤ sender.config.historyCapacity ∧
      sender.nextSequence + count ≤ u64Max ∧
      after = { sender with
        pending := sender.pending ++ queueBatches tick sender.config.maxEventsPerBatch
          sender.nextSequence count (despawnEvents sender.projected desired ++ changed)
        nextSequence := sender.nextSequence + count
        lastTick := tick
        projected := desired
        keyframesForced := false } := by
  simp only [update, call_bind, call_get, call_ite, call_liftExcept] at succeeded
  split at succeeded
  · simp at succeeded
  · rename_i ordered
    cases collected : collectVisible visible (∅ : EntityTable I S) with
    | error => simp [collected] at succeeded
    | ok desired =>
      simp only [collected] at succeeded
      split at succeeded
      · simp at succeeded
      · rename_i limit
        cases produced : visibleEvents sender.projected sender.keyframesForced delta
            desired.toList with
        | error error => simp [produced] at succeeded
        | ok changed =>
          simp only [produced] at succeeded
          split at succeeded
          · simp at succeeded
          · rename_i capacity
            split at succeeded
            · simp at succeeded
            · rename_i next found
              obtain ⟨rfl, bounded⟩ := checkedAdd_eq_some found
              simp only [call_bind] at succeeded
              obtain ⟨rfl, rfl⟩ := succeeded
              exact ⟨desired, changed, by omega, by omega, rfl, by omega, produced, rfl,
                by omega, bounded, rfl⟩

theorem acknowledge_cases (sender : ReplicationSender I S D) (acknowledgement : ReplicationAck)
    (issued : acknowledgement.acknowledgedSequence ≤ sender.nextSequence - 1) :
    (acknowledgement.acknowledgedSequence ≤ sender.acknowledgedSequence ∧
      (acknowledge acknowledgement).call sender = (.ok 0, sender)) ∨
    (sender.acknowledgedSequence < acknowledgement.acknowledgedSequence ∧
      ∀ batch, sender.pending.find? (·.sequence = acknowledgement.acknowledgedSequence) =
          some batch → batch.tick = acknowledgement.appliedTick →
        let pending := sender.pending.dropWhile
          (·.sequence ≤ acknowledgement.acknowledgedSequence)
        (acknowledge acknowledgement).call sender =
          (.ok (sender.pending.length - pending.length), { sender with
            acknowledgedSequence := acknowledgement.acknowledgedSequence, pending })) := by
  have accepted : ¬sender.nextSequence - 1 < acknowledgement.acknowledgedSequence := by omega
  by_cases old : acknowledgement.acknowledgedSequence ≤ sender.acknowledgedSequence
  · refine .inl ⟨old, ?_⟩
    simp [acknowledge, call_bind, accepted, old]
  · refine .inr ⟨by omega, ?_⟩
    intro batch found sameTick
    simp [acknowledge, call_bind, accepted, old, found, sameTick]

theorem selectedIndices_size (length redundancy : Nat) (positive : 0 < redundancy) :
    (selectedIndices length redundancy).size ≤ redundancy := by
  have grows (indices : List Nat) (selected : Std.ExtTreeSet Nat) :
      (indices.foldl (fun selected index => selected.insert index) selected).size ≤
        selected.size + indices.length := by
    induction indices generalizing selected with
    | nil => simp
    | cons index _ ih =>
      have step := Std.ExtTreeSet.size_insert_le (t := selected) (k := index)
      have tail := ih (selected.insert index)
      simp only [foldl_cons, length_cons]
      omega
  have first := Std.ExtTreeSet.size_insert_le (t := (∅ : Std.ExtTreeSet Nat)) (k := 0)
  have total := grows (range' (length - (redundancy - 1))
    (length - (length - (redundancy - 1)))) ((∅ : Std.ExtTreeSet Nat).insert 0)
  simp only [Std.ExtTreeSet.size_empty, length_range'] at first total
  simp only [selectedIndices]
  omega

theorem zero_mem_selectedIndices (length redundancy : Nat) :
    0 ∈ selectedIndices length redundancy := by
  have keeps (indices : List Nat) (selected : Std.ExtTreeSet Nat) (member : 0 ∈ selected) :
      0 ∈ indices.foldl (fun selected index => selected.insert index) selected := by
    induction indices generalizing selected with
    | nil => exact member
    | cons _ _ ih => exact ih _ (Std.ExtTreeSet.mem_insert.mpr (.inr member))
  exact keeps _ _ (by simp)

theorem packet_spec (sender : ReplicationSender I S D) (positive : 0 < sender.config.redundancy) :
    sender.packet.batches.length ≤ sender.config.redundancy ∧
      (∀ batch ∈ sender.packet.batches, batch ∈ sender.pending) ∧
      ∀ oldest ∈ sender.pending.head?, oldest ∈ sender.packet.batches := by
  by_cases short : sender.pending.length ≤ sender.config.redundancy
  · simp only [packet, short, if_true]
    refine ⟨trivial, fun _ => id, ?_⟩
    intro oldest first
    exact mem_of_mem_head? first
  · simp only [packet, short, if_false]
    refine ⟨?_, ?_, ?_⟩
    · have selected := selectedIndices_size sender.pending.length sender.config.redundancy positive
      have mapped := length_filterMap_le (fun index => sender.pending[index]?)
        (selectedIndices sender.pending.length sender.config.redundancy).toList
      rw [Std.ExtTreeSet.length_toList] at mapped
      omega
    · intro batch member
      obtain ⟨index, _, found⟩ := mem_filterMap.mp member
      exact mem_of_getElem? found
    · intro oldest first
      refine mem_filterMap.mpr ⟨0, ?_, ?_⟩
      · exact Std.ExtTreeSet.mem_toList.mpr (zero_mem_selectedIndices _ _)
      · simpa [head?_eq_getElem?] using first

end ReplicationSender

end Operations

end Elura.Replication
