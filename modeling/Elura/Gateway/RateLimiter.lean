import Elura.Basis.Meter
import Elura.Core.RateLimit

/-!
The limiter that keeps one token bucket per key and drops the buckets nobody has used for a
while. A dropped bucket comes back full, so the limit holds only if a bucket refills in the time
after which it may be dropped.
-/

namespace Elura

open List

def rateLimitShards : Nat := 64

def rateLimitIdleTtl : ℚ := 300

def rateLimitPruneInterval : Nat := 256

structure RateEntry where
  bucket : TokenBucket
  lastSeen : ℚ
  deriving DecidableEq

structure RateShard (κ : Type) where
  entries : κ → Option RateEntry
  operations : Nat

structure KeyedRateLimiter (κ : Type) where
  rate : Nat
  burst : Nat
  shards : Nat → RateShard κ

/-- A call of `allow` with the times it reads: on entry, for a new bucket and for the decision. -/
structure RateCall (κ : Type) where
  key : κ
  entered : ℚ
  created : ℚ
  decided : ℚ

namespace KeyedRateLimiter

variable {κ : Type} [DecidableEq κ]

def new (rate burst : Nat) : KeyedRateLimiter κ where
  rate := rate
  burst := burst
  shards := fun _ => { entries := fun _ => none, operations := 0 }

section Allow

variable (hash : κ → Nat)

def index (key : κ) : Nat := hash key % rateLimitShards

def pruned (shard : RateShard κ) (now : ℚ) : RateShard κ :=
  let operations := (shard.operations + 1) % 2 ^ 64
  if operations % rateLimitPruneInterval = 0 then
    { entries := fun key => (shard.entries key).filter
        (fun entry => decide (max 0 (now - entry.lastSeen) < rateLimitIdleTtl))
      operations }
  else { shard with operations }

def allow (limiter : KeyedRateLimiter κ) (call : RateCall κ) : Bool × KeyedRateLimiter κ :=
  let shard := pruned (limiter.shards (index hash call.key)) call.entered
  let entry := (shard.entries call.key).getD
    { bucket := .new limiter.rate limiter.burst call.created, lastSeen := call.entered }
  let (allowed, bucket) := entry.bucket.allow call.decided
  let shard := { shard with
    entries := Function.update shard.entries call.key (some { bucket, lastSeen := call.entered }) }
  (allowed, { limiter with
    shards := Function.update limiter.shards (index hash call.key) shard })

def run : KeyedRateLimiter κ → List (RateCall κ) → List (RateCall κ × Bool)
  | _, [] => []
  | limiter, call :: calls =>
    (call, (limiter.allow hash call).1) :: run (limiter.allow hash call).2 calls

end Allow

def admissions (key : κ) (decisions : List (RateCall κ × Bool)) : List ℚ :=
  (decisions.filter (fun decision => decision.1.key = key ∧ decision.2)).map
    (fun decision => decision.1.decided)

theorem admissions_run_cons (hash : κ → Nat) (limiter : KeyedRateLimiter κ) (key : κ)
    (call : RateCall κ) (calls : List (RateCall κ)) :
    admissions key (run hash limiter (call :: calls)) =
      (if call.key = key ∧ (limiter.allow hash call).1 then [call.decided] else []) ++
        admissions key (run hash (limiter.allow hash call).2 calls) := by
  rw [run, admissions, filter_cons]
  simp only [decide_eq_true_eq]
  split
  · rfl
  · rfl

/-- The clock never goes back, and no call takes longer than `pause` between its readings. -/
def Clocked (pause : ℚ) : ℚ → List (RateCall κ) → Prop
  | _, [] => True
  | now, call :: calls =>
    now ≤ call.entered ∧ call.entered ≤ call.created ∧ call.created ≤ call.decided ∧
      call.decided ≤ call.entered + pause ∧ Clocked pause call.decided calls

section Levels

def entryLevel (burst : ℚ) (now : ℚ) : Option RateEntry → ℚ
  | none => burst
  | some entry => entry.bucket.level now

structure Tracked (rate burst pause now : ℚ) (entry : RateEntry) : Prop where
  filled : entry.bucket.Filled now
  rate : entry.bucket.rate = rate
  capacity : entry.bucket.capacity = burst
  seen : entry.bucket.updatedAt ≤ entry.lastSeen + pause

def TrackedEntry (rate burst pause now : ℚ) (found : Option RateEntry) : Prop :=
  ∀ entry, found = some entry → Tracked rate burst pause now entry

variable {rate burst pause now later : ℚ} {found : Option RateEntry} {times : List ℚ}

theorem TrackedEntry.mono (tracked : TrackedEntry rate burst pause now found)
    (passed : now ≤ later) : TrackedEntry rate burst pause later found := by
  intro entry isFound
  have earlier := tracked entry isFound
  exact { earlier with filled := earlier.filled.mono passed }

theorem meter_wait (room : 0 ≤ burst) (flows : 0 ≤ rate)
    (tracked : TrackedEntry rate burst pause now found)
    (meter : Meter rate burst now (entryLevel burst now found) times) (passed : now ≤ later) :
    Meter rate burst later (entryLevel burst later found) times := by
  cases found with
  | none =>
    have gained := mul_nonneg flows (sub_nonneg.mpr passed)
    exact meter.wait passed room le_rfl (by simp only [entryLevel]; linarith)
  | some entry =>
    obtain ⟨filled, isRate, isCapacity, _⟩ := tracked entry rfl
    refine meter.wait passed (filled.mono passed).level_nonneg ?_ ?_
    · rw [← isCapacity]
      exact TokenBucket.level_le_capacity
    · rw [← isRate]
      exact filled.level_le passed

theorem pruned_entries {κ : Type} (shard : RateShard κ) (now : ℚ) (key : κ) :
    (pruned shard now).entries key = shard.entries key ∨
      ∃ entry, shard.entries key = some entry ∧ rateLimitIdleTtl ≤ now - entry.lastSeen ∧
        (pruned shard now).entries key = none := by
  by_cases due : (shard.operations + 1) % 2 ^ 64 % rateLimitPruneInterval = 0
  · simp only [pruned, if_pos due]
    cases shard.entries key with
    | none => exact .inl rfl
    | some entry =>
      by_cases recent : max 0 (now - entry.lastSeen) < rateLimitIdleTtl
      · exact .inl (by simp [Option.filter, recent])
      · refine .inr ⟨entry, rfl, ?_, by simp [Option.filter, recent]⟩
        rcases le_max_iff.mp (not_lt.mp recent) with never | idle
        · exact absurd never (by norm_num [rateLimitIdleTtl])
        · exact idle
  · left
    simp only [pruned, if_neg due]

/-- An entry that is dropped was full again, so dropping it changes no level. -/
theorem pruned_level {κ : Type} {shard : RateShard κ} {key : κ}
    (refills : burst ≤ rate * (rateLimitIdleTtl - pause)) (flows : 0 ≤ rate)
    (tracked : TrackedEntry rate burst pause now (shard.entries key)) :
    TrackedEntry rate burst pause now ((pruned shard now).entries key) ∧
      entryLevel burst now ((pruned shard now).entries key) =
        entryLevel burst now (shard.entries key) := by
  rcases pruned_entries shard now key with kept | ⟨entry, found, idle, dropped⟩
  · rw [kept]
    exact ⟨tracked, rfl⟩
  · have known := tracked entry found
    have pausing := known.seen
    have gained : rate * (rateLimitIdleTtl - pause) ≤ rate * (now - entry.bucket.updatedAt) :=
      mul_le_mul_of_nonneg_left (by linarith) flows
    have full := known.filled.level_idle (by
      rw [known.capacity, known.rate]
      linarith)
    rw [dropped, found, entryLevel, entryLevel, full, known.capacity]
    exact ⟨fun _ isFound => (nomatch isFound), rfl⟩

end Levels

section Steps

variable {hash : κ → Nat} {limiter : KeyedRateLimiter κ} {key : κ} {call : RateCall κ}
  {pause now : ℚ} {times : List ℚ}

structure Follows (hash : κ → Nat) (pause : ℚ) (limiter : KeyedRateLimiter κ) (key : κ) (now : ℚ)
    (times : List ℚ) : Prop where
  tracked : TrackedEntry limiter.rate limiter.burst pause now
    ((limiter.shards (index hash key)).entries key)
  meter : Meter (limiter.rate : ℚ) limiter.burst now
    (entryLevel limiter.burst now ((limiter.shards (index hash key)).entries key)) times

/-- The settings under which a bucket is never dropped before it is full again. -/
structure Refilling (limiter : KeyedRateLimiter κ) (pause : ℚ) : Prop where
  rate : 0 < limiter.rate
  burst : 1 ≤ limiter.burst
  refills : (limiter.burst : ℚ) ≤ limiter.rate * (rateLimitIdleTtl - pause)

theorem allow_other (different : call.key ≠ key) :
    ((limiter.allow hash call).2.shards (index hash key)).entries key =
      if index hash call.key = index hash key then
        (pruned (limiter.shards (index hash key)) call.entered).entries key
      else (limiter.shards (index hash key)).entries key := by
  simp only [allow]
  by_cases same : index hash call.key = index hash key
  · rw [if_pos same, same, Function.update_self]
    simp only [Function.update_of_ne (Ne.symm different)]
  · rw [if_neg same, Function.update_of_ne (Ne.symm same)]

def entryFor (hash : κ → Nat) (limiter : KeyedRateLimiter κ) (call : RateCall κ) : RateEntry :=
  ((pruned (limiter.shards (index hash call.key)) call.entered).entries call.key).getD
    { bucket := .new limiter.rate limiter.burst call.created, lastSeen := call.entered }

theorem allow_decision :
    (limiter.allow hash call).1 = ((entryFor hash limiter call).bucket.allow call.decided).1 :=
  rfl

theorem allow_own :
    ((limiter.allow hash call).2.shards (index hash call.key)).entries call.key =
      some { bucket := ((entryFor hash limiter call).bucket.allow call.decided).2
             lastSeen := call.entered } := by
  simp [allow, entryFor]

omit [DecidableEq κ] in
theorem entryFor_level (refilling : limiter.Refilling pause)
    (entered : call.entered ≤ call.created) (created : call.created ≤ call.decided)
    (tracked : TrackedEntry limiter.rate limiter.burst pause call.entered
      ((pruned (limiter.shards (index hash call.key)) call.entered).entries call.key)) :
    (entryFor hash limiter call).bucket.Filled call.decided ∧
      (entryFor hash limiter call).bucket.rate = limiter.rate ∧
      (entryFor hash limiter call).bucket.capacity = limiter.burst ∧
      (entryFor hash limiter call).bucket.level call.decided =
        entryLevel limiter.burst call.decided
          ((pruned (limiter.shards (index hash call.key)) call.entered).entries call.key) := by
  unfold entryFor
  cases found : (pruned (limiter.shards (index hash call.key)) call.entered).entries call.key with
  | some entry =>
    obtain ⟨filled, isRate, isCapacity, _⟩ := tracked entry found
    exact ⟨filled.mono (le_trans entered created), isRate, isCapacity, rfl⟩
  | none =>
    have capacity : max limiter.burst 1 = limiter.burst := max_eq_left refilling.burst
    have filled : (TokenBucket.new limiter.rate limiter.burst call.created).Filled
        call.decided := by
      refine ⟨?_, ?_, le_rfl, created⟩
      · exact Nat.cast_pos.mpr refilling.rate
      · exact Nat.cast_nonneg _
    refine ⟨filled, rfl, by simp only [Option.getD_none, TokenBucket.new, capacity], ?_⟩
    have gained := mul_nonneg (sub_nonneg.mpr created) filled.flows.le
    simp only [Option.getD_none, TokenBucket.level, filled.elapsed]
    simp only [TokenBucket.new, capacity] at gained ⊢
    exact min_eq_right (by linarith)

theorem Follows.allow (refilling : limiter.Refilling pause)
    (follows : Follows hash pause limiter key now times) (passed : now ≤ call.entered)
    (entered : call.entered ≤ call.created) (created : call.created ≤ call.decided)
    (decided : call.decided ≤ call.entered + pause) :
    Follows hash pause (limiter.allow hash call).2 key call.decided
      (times ++ if call.key = key ∧ (limiter.allow hash call).1 then [call.decided] else []) := by
  have flows : (0 : ℚ) ≤ limiter.rate := Nat.cast_nonneg _
  have room : (0 : ℚ) ≤ limiter.burst := Nat.cast_nonneg _
  have taken : call.entered ≤ call.decided := le_trans entered created
  have meter := meter_wait room flows follows.tracked follows.meter passed
  obtain ⟨tracked, level⟩ :=
    pruned_level refilling.refills flows (follows.tracked.mono passed)
  by_cases same : call.key = key
  · subst same
    rw [← level] at meter
    have decision := meter_wait room flows tracked meter taken
    obtain ⟨filled, isRate, isCapacity, isLevel⟩ :=
      entryFor_level refilling entered created tracked
    obtain ⟨after, rateKept, capacityKept, updated, outcome⟩ := filled.allow
    have left := TokenBucket.level_updatedAt after.full
    rw [updated] at left
    rw [← isLevel] at decision
    refine ⟨?_, ?_⟩
    · intro entry isFound
      rw [allow_own] at isFound
      cases isFound
      exact ⟨after, rateKept.trans isRate, capacityKept.trans isCapacity,
        by rw [updated]; exact decided⟩
    · rw [allow_own, entryLevel, left, allow_decision]
      cases allowed : ((entryFor hash limiter call).bucket.allow call.decided).1 with
      | false =>
        simp only [allowed, Bool.false_eq_true, if_false] at outcome
        simp only [Bool.false_eq_true, and_false, if_false, append_nil, outcome]
        exact decision
      | true =>
        simp only [allowed] at outcome
        simp only [outcome.2]
        exact decision.accept outcome.1
  · have unchanged : ¬(call.key = key ∧ (limiter.allow hash call).1 = true) :=
      fun both => same both.1
    rw [if_neg unchanged, append_nil]
    have entry := @allow_other _ _ hash limiter key call same
    by_cases shared : index hash call.key = index hash key
    · rw [if_pos shared] at entry
      rw [← level] at meter
      refine ⟨?_, ?_⟩
      · rw [entry]
        exact tracked.mono taken
      · rw [entry]
        exact meter_wait room flows tracked meter taken
    · rw [if_neg shared] at entry
      refine ⟨?_, ?_⟩
      · rw [entry]
        exact follows.tracked.mono (le_trans passed taken)
      · rw [entry]
        exact meter_wait room flows (follows.tracked.mono passed) meter taken

theorem Follows.run {calls : List (RateCall κ)} (refilling : limiter.Refilling pause)
    (follows : Follows hash pause limiter key now times) (clocked : Clocked pause now calls) :
    ∃ later level, Meter (limiter.rate : ℚ) limiter.burst later level
      (times ++ admissions key (run hash limiter calls)) := by
  induction calls generalizing limiter now times with
  | nil =>
    have none : times ++ admissions key (KeyedRateLimiter.run hash limiter []) = times :=
      append_nil times
    rw [none]
    exact ⟨now, _, follows.meter⟩
  | cons call _ ih =>
    obtain ⟨passed, entered, created, decided, rest⟩ := clocked
    have next := follows.allow refilling passed entered created decided
    have still : (limiter.allow hash call).2.Refilling pause :=
      ⟨refilling.rate, refilling.burst, refilling.refills⟩
    obtain ⟨later, level, meter⟩ := ih still next rest
    refine ⟨later, level, ?_⟩
    rw [admissions_run_cons, ← append_assoc]
    exact meter

end Steps

/-- In every interval a key gets at most its burst and what its rate gives, as long as a bucket
refills before it can be dropped. -/
theorem rate_limit_enforced (hash : κ → Nat) (rate burst : Nat) (pause : ℚ) (flows : 0 < rate)
    (atLeast : 1 ≤ burst) (refills : (burst : ℚ) ≤ rate * (rateLimitIdleTtl - pause))
    (calls : List (RateCall κ)) (beginning : ℚ) (clocked : Clocked pause beginning calls)
    (key : κ) (start stop : ℚ) (ordered : start ≤ stop) :
    (countBetween (admissions key (run hash (new rate burst) calls)) start stop : ℚ) ≤
      burst + rate * (stop - start) := by
  have fresh : Follows hash pause (new rate burst) key beginning [] :=
    ⟨fun _ isFound => (nomatch isFound), Meter.start beginning⟩
  obtain ⟨later, level, meter⟩ := fresh.run ⟨flows, atLeast, refills⟩ clocked
  exact (meter.count_bound (Nat.cast_nonneg _) (Nat.cast_nonneg _) ordered).1

theorem rate_limit_enforced_twice :
    (countBetween (admissions () (run (fun _ => 0) (new 1 1)
      [⟨(), 0, 0, 0⟩, ⟨(), 0, 0, 0⟩])) 0 0 : ℚ) ≤ 1 + 1 * (0 - 0) :=
  rate_limit_enforced (fun _ => 0) 1 1 0 (by decide) (by decide) (by norm_num [rateLimitIdleTtl])
    [⟨(), 0, 0, 0⟩, ⟨(), 0, 0, 0⟩] 0 (by norm_num [Clocked]) () 0 0 le_rfl

section Dropped

def callAt (now : ℚ) : RateCall Unit where
  key := ()
  entered := now
  created := now
  decided := now

def slowBucket (tokens : Nat) (now : ℚ) : TokenBucket where
  rate := 1
  capacity := 301
  tokens := tokens
  updatedAt := now

structure Left (limiter : KeyedRateLimiter Unit) (now : ℚ) (tokens operations : Nat) : Prop where
  rate : limiter.rate = 1
  burst : limiter.burst = 301
  entry : (limiter.shards 0).entries () =
    some { bucket := slowBucket tokens now, lastSeen := now }
  operations : (limiter.shards 0).operations = operations

theorem slowBucket_allow {tokens : Nat} {now : ℚ} (bound : tokens ≤ 301) :
    (slowBucket tokens now).allow now = (decide (1 ≤ tokens), slowBucket (tokens - 1) now) := by
  have full : (slowBucket tokens now).tokens ≤ (slowBucket tokens now).capacity := by
    simp only [slowBucket]
    exact_mod_cast bound
  have level : (slowBucket tokens now).level now = tokens := TokenBucket.level_updatedAt full
  rw [TokenBucket.allow, TokenBucket.allowN, if_neg (by simp [slowBucket]), level]
  by_cases empty : tokens = 0
  · subst empty
    rw [if_pos (by norm_num)]
    rfl
  · have some : 1 ≤ tokens := Nat.one_le_iff_ne_zero.mpr empty
    rw [if_neg (by exact_mod_cast Nat.not_lt.mpr some), decide_eq_true some]
    simp only [slowBucket, Nat.cast_sub some]

theorem pruned_operations (shard : RateShard Unit) (now : ℚ) :
    (pruned shard now).operations = (shard.operations + 1) % 2 ^ 64 := by
  unfold pruned
  simp only
  split
  · rfl
  · rfl

variable {limiter : KeyedRateLimiter Unit} {now : ℚ} {tokens operations : Nat}

theorem left_of_entry (rate : limiter.rate = 1) (burst : limiter.burst = 301)
    (bound : tokens ≤ 301) (few : operations + 1 < 2 ^ 64)
    (counted : (limiter.shards 0).operations = operations)
    (entry : (entryFor (fun _ => 0) limiter (callAt now)).bucket = slowBucket tokens now) :
    (limiter.allow (fun _ => 0) (callAt now)).1 = decide (1 ≤ tokens) ∧
      Left (limiter.allow (fun _ => 0) (callAt now)).2 now (tokens - 1) (operations + 1) := by
  have decision : (entryFor (fun _ => 0) limiter (callAt now)).bucket.allow now =
      (decide (1 ≤ tokens), slowBucket (tokens - 1) now) := by
    rw [entry]
    exact slowBucket_allow bound
  refine ⟨congrArg Prod.fst decision, rate, burst, ?_, ?_⟩
  · have stored := @allow_own Unit _ (fun _ => 0) limiter (callAt now)
    rw [show (callAt now).decided = now from rfl, decision] at stored
    exact stored
  · have shard : ((limiter.allow (fun _ => 0) (callAt now)).2.shards 0).operations =
        (pruned (limiter.shards 0) now).operations := rfl
    rw [shard, pruned_operations, counted]
    exact Nat.mod_eq_of_lt few

theorem Left.allow (left : Left limiter now tokens operations) (bound : tokens ≤ 301)
    (few : operations + 1 < 2 ^ 64) :
    (limiter.allow (fun _ => 0) (callAt now)).1 = decide (1 ≤ tokens) ∧
      Left (limiter.allow (fun _ => 0) (callAt now)).2 now (tokens - 1) (operations + 1) := by
  refine left_of_entry left.rate left.burst bound few left.operations ?_
  have kept : (pruned (limiter.shards 0) now).entries () = (limiter.shards 0).entries () := by
    rcases pruned_entries (limiter.shards 0) now () with kept | ⟨entry, found, idle, _⟩
    · exact kept
    · rw [left.entry] at found
      cases found
      exact absurd idle (by norm_num [rateLimitIdleTtl])
  have found : (pruned (limiter.shards 0) now).entries () =
      some { bucket := slowBucket tokens now, lastSeen := now } := kept.trans left.entry
  change (((pruned (limiter.shards 0) now).entries ()).getD _).bucket = _
  rw [found, Option.getD_some]

/-- A burst at one moment gets what is left and no more. -/
theorem Left.burst_allowed (left : Left limiter now tokens operations) (bound : tokens ≤ 301)
    (count : Nat) (few : operations + count < 2 ^ 64) :
    ∃ after, Left after now (tokens - count) (operations + count) ∧
      ∀ rest, admissions () (run (fun _ => 0) limiter (List.replicate count (callAt now) ++ rest)) =
        List.replicate (min count tokens) now ++ admissions () (run (fun _ => 0) after rest) := by
  induction count generalizing limiter tokens operations with
  | zero => exact ⟨limiter, left, fun rest => by rw [Nat.zero_min]; rfl⟩
  | succ count ih =>
    obtain ⟨allowed, next⟩ := left.allow bound (by omega)
    obtain ⟨after, remaining, admitted⟩ := ih next (by omega) (by omega)
    refine ⟨after, ?_, fun rest => ?_⟩
    · rw [Nat.sub_sub, Nat.add_assoc, Nat.add_comm 1 count] at remaining
      exact remaining
    · rw [replicate_succ, cons_append, admissions_run_cons, admitted, allowed,
        ← append_assoc]
      congr 1
      by_cases empty : tokens = 0
      · rw [if_neg (by simp [empty]), nil_append, empty, Nat.min_zero, Nat.min_zero]
      · have some : 1 ≤ tokens := Nat.one_le_iff_ne_zero.mpr empty
        rw [if_pos ⟨rfl, decide_eq_true some⟩]
        change replicate (min count (tokens - 1) + 1) now = _
        congr 1
        omega

/-- A burst at the start and another after five minutes, with enough refused calls in between
for the bucket to be dropped. -/
def twoBursts : List (RateCall Unit) :=
  callAt 0 :: (List.replicate 510 (callAt 0) ++ callAt 300 :: List.replicate 300 (callAt 300))

theorem clocked_replicate {now : ℚ} (count : Nat) {rest : List (RateCall Unit)}
    (clocked : Clocked 0 now rest) :
    Clocked 0 now (List.replicate count (callAt now) ++ rest) := by
  induction count with
  | zero => exact clocked
  | succ _ ih =>
    exact ⟨le_rfl, le_rfl, le_rfl, (add_zero _).ge, ih⟩

theorem admissions_twoBursts :
    admissions () (run (fun _ => 0) (new 1 301) twoBursts) =
      List.replicate 301 0 ++ List.replicate 301 300 := by
  obtain ⟨first, began⟩ :=
    @left_of_entry (new 1 301) 0 301 0 rfl rfl (by decide) (by decide) rfl rfl
  obtain ⟨spent, exhausted, admitted⟩ := began.burst_allowed (by decide) 510 (by decide)
  have due : ((spent.shards 0).operations + 1) % 2 ^ 64 % rateLimitPruneInterval = 0 := by
    rw [exhausted.operations]
    decide
  have dropped : (pruned (spent.shards 0) 300).entries () = none := by
    simp only [pruned, if_pos due, exhausted.entry]
    norm_num [Option.filter, rateLimitIdleTtl]
  have renewed : (entryFor (fun _ => 0) spent (callAt 300)).bucket = slowBucket 301 300 := by
    change (((pruned (spent.shards 0) 300).entries ()).getD _).bucket = _
    rw [dropped, exhausted.rate, exhausted.burst]
    simp [TokenBucket.new, slowBucket, callAt]
  obtain ⟨again, full⟩ := left_of_entry exhausted.rate exhausted.burst (by decide) (by decide)
    exhausted.operations renewed
  obtain ⟨_, _, final⟩ := full.burst_allowed (by decide) 300 (by decide)
  have last := final []
  rw [append_nil] at last
  have split : ∀ now : ℚ, replicate 301 now = [now] ++ replicate 300 now :=
    fun now => replicate_succ
  have nothing : ∀ limiter : KeyedRateLimiter Unit,
      admissions () (run (fun _ => 0) limiter []) = [] := fun _ => rfl
  rw [nothing, append_nil] at last
  rw [twoBursts, admissions_run_cons, admitted, admissions_run_cons, last, first, again, split]
  rfl

theorem dropped_bucket_exceeds_rate :
    Clocked 0 0 twoBursts ∧
      (301 : ℚ) + 1 * (300 - 0) <
        countBetween (admissions () (run (fun _ => 0) (new 1 301) twoBursts)) 0 300 := by
  refine ⟨?_, ?_⟩
  · refine ⟨le_rfl, le_rfl, le_rfl, (add_zero _).ge, clocked_replicate 510 ?_⟩
    refine ⟨by norm_num [callAt], le_rfl, le_rfl, (add_zero _).ge, ?_⟩
    rw [← append_nil (replicate 300 (callAt 300))]
    exact clocked_replicate 300 trivial
  · have total :
        countBetween (replicate 301 (0 : ℚ) ++ replicate 301 300) 0 300 = 602 := by
      rw [countBetween, countP_append, countP_replicate, countP_replicate,
        if_pos (by norm_num), if_pos (by norm_num)]
    rw [admissions_twoBursts, total]
    norm_num

end Dropped

end KeyedRateLimiter

end Elura
