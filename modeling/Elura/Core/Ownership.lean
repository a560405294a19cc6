import Elura.Basis.Placement
import Elura.Basis.Rust
import Elura.Core.Values

/-!
Ownership of shards by World instances: the assignment a resolver hands out and the instance
every coordinator prefers for a shard.
-/

namespace Elura

open List

variable {shard : UInt32} {worlds : List String}

structure Assignment where
  regionId : UInt32
  realmId : UInt32
  shardId : UInt32
  worldId : String
  epoch : Nat
  deriving DecidableEq, Repr

def scramble (hash : UInt64) : UInt64 :=
  let hash := (hash ^^^ (hash >>> 33)) * 0xff51afd7ed558ccd
  let hash := (hash ^^^ (hash >>> 33)) * 0xc4ceb9fe1a85ec53
  hash ^^^ (hash >>> 33)

def score (shard : UInt32) (id : String) : UInt64 :=
  let bytes := (toString shard).toUTF8.toList ++ [0] ++ id.toUTF8.toList
  scramble (bytes.foldl (fun hash byte => (hash ^^^ byte.toUInt64) * 1099511628211)
    14695981039346656037)

def outranks (id : String) (score : UInt64) : Option (String × UInt64) → Bool
  | none => true
  | some (old, oldScore) => score > oldScore || (score == oldScore && id < old)

def preferredWorldFrom (shard : UInt32) :
    List String → List String → Option (String × UInt64) → Except Error (Option (String × UInt64))
  | [], _, best => .ok best
  | id :: rest, seen, best =>
    if id = "" ∨ id ∈ seen then .error (.invalidConfig "invalid world membership")
    else
      preferredWorldFrom shard rest (id :: seen)
        (if outranks id (score shard id) best then some (id, score shard id) else best)

def preferredWorld (shard : UInt32) (worlds : List String) : Except Error String := do
  if worlds = [] then throw .unavailable
  match ← preferredWorldFrom shard worlds [] none with
  | some (id, _) => pure id
  | none => throw .unavailable

theorem preferredWorldFrom_named {seen : List String} {best chosen : Option (String × UInt64)}
    (found : preferredWorldFrom shard worlds seen best = .ok chosen)
    (named : ∀ world ∈ best, world.1 ≠ "") : ∀ world ∈ chosen, world.1 ≠ "" := by
  induction worlds generalizing seen best with
  | nil =>
    cases found
    exact named
  | cons id rest ih =>
    simp only [preferredWorldFrom] at found
    split at found
    · cases found
    · rename_i usable
      apply ih found
      intro world isBest
      split at isBest
      · cases isBest
        exact fun blank => usable (.inl blank)
      · exact named world isBest

theorem preferredWorld_ne_empty {world : String} (found : preferredWorld shard worlds = .ok world) :
    world ≠ "" := by
  simp only [preferredWorld] at found
  split at found
  · cases found
  · obtain ⟨chosen, loop, named⟩ := bind_ok found
    cases chosen with
    | none => cases named
    | some best =>
      cases named
      exact preferredWorldFrom_named loop nofun best rfl

def Prefers (shard : UInt32) (left right : String) : Prop :=
  outranks left (score shard left) (some (right, score shard right)) = true

theorem prefers_iff {left right : String} :
    Prefers shard left right ↔ (score shard right).toNat < (score shard left).toNat ∨
      (score shard left).toNat = (score shard right).toNat ∧ left < right := by
  simp only [Prefers, outranks, Bool.or_eq_true, Bool.and_eq_true, decide_eq_true_eq, beq_iff_eq,
    UInt64.lt_iff_toNat_lt, UInt64.toNat_inj]

theorem prefers_asymm (shard : UInt32) (left right : String) (ahead : Prefers shard left right) :
    ¬Prefers shard right left := by
  rw [prefers_iff] at ahead ⊢
  rintro (less | ⟨same, less⟩)
  · omega
  · rcases ahead with more | ⟨-, more⟩
    · omega
    · exact lt_asymm less more

theorem prefers_trans (one two three : String) (near : Prefers shard one two)
    (far : Prefers shard two three) : Prefers shard one three := by
  rw [prefers_iff] at near far ⊢
  rcases near with less | ⟨same, less⟩
  · left
    omega
  · rcases far with more | ⟨also, more⟩
    · left
      omega
    · exact .inr ⟨same.trans also, less.trans more⟩

theorem prefers_total {left right : String} (different : left ≠ right)
    (behind : ¬Prefers shard left right) : Prefers shard right left := by
  rw [prefers_iff] at behind ⊢
  rcases Nat.lt_trichotomy (score shard left).toNat (score shard right).toNat with
    less | same | more
  · exact .inl less
  · rcases lt_trichotomy left right with smaller | equal | larger
    · exact absurd (.inr ⟨same, smaller⟩) behind
    · exact absurd equal different
    · exact .inr ⟨same.symm, larger⟩
  · exact absurd (.inl more) behind

theorem preferredWorldFrom_eq (shard : UInt32) {seen : List String} (best : String)
    (distinct : worlds.Nodup) (fresh : ∀ id ∈ worlds, id ≠ "" ∧ id ∉ seen) :
    ∃ chosen, chosen = worlds.foldl (fun kept next => if outranks next (score shard next)
        (some (kept, score shard kept)) then next else kept) best ∧
      preferredWorldFrom shard worlds seen (some (best, score shard best)) =
        .ok (some (chosen, score shard chosen)) := by
  induction worlds generalizing seen best with
  | nil => exact ⟨best, rfl, rfl⟩
  | cons id rest ih =>
    obtain ⟨named, unseen⟩ := fresh id mem_cons_self
    obtain ⟨absent, distinct⟩ := nodup_cons.mp distinct
    have later : ∀ other ∈ rest, other ≠ "" ∧ other ∉ id :: seen := by
      intro other listed
      obtain ⟨otherNamed, otherUnseen⟩ := fresh other (mem_cons_of_mem _ listed)
      refine ⟨otherNamed, ?_⟩
      rintro (_ | ⟨_, old⟩)
      · exact absent listed
      · exact otherUnseen old
    simp only [preferredWorldFrom, named, unseen, foldl_cons]
    split
    · exact ih id distinct later
    · exact ih best distinct later

theorem preferredWorld_tops (distinct : worlds.Nodup) (named : "" ∉ worlds)
    (present : worlds ≠ []) :
    ∃ best, preferredWorld shard worlds = .ok best ∧ Tops (Prefers shard) worlds best := by
  cases worlds with
  | nil => exact absurd rfl present
  | cons first rest =>
    obtain ⟨absent, distinct⟩ := nodup_cons.mp distinct
    have fresh : ∀ id ∈ rest, id ≠ "" ∧ id ∉ [first] := by
      intro id listed
      refine ⟨fun blank => named (blank ▸ mem_cons_of_mem _ listed), ?_⟩
      intro same
      exact absent (mem_singleton.mp same ▸ listed)
    obtain ⟨chosen, isChosen, loop⟩ :=
      preferredWorldFrom_eq shard first distinct fresh
    have firstNamed : first ≠ "" := fun blank => named (blank ▸ mem_cons_self)
    refine ⟨chosen, ?_, ?_⟩
    · simp only [preferredWorld, preferredWorldFrom, firstNamed, outranks, if_true, loop]
      rfl
    · rw [isChosen]
      apply Tops.of_scan prefers_trans
      intro next _ kept _ different
      split
      · assumption
      · rename_i behind
        exact prefers_total different behind

end Elura
