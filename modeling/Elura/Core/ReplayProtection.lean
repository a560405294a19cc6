import Elura.Basis.OrderedMap
import Elura.Core.Values

/-!
The in-memory replay protection of `elura_core::replay_protection`. A reservation keeps its key
until the expiry given with it; every later one first drops the keys that have expired.
-/

namespace Elura

open Std (ExtTreeMap)

structure MemoryReplayProtectionStore where
  used : ExtTreeMap String Nat

namespace MemoryReplayProtectionStore

variable {key : String} {expiresAt now : Nat}

def new : MemoryReplayProtectionStore where
  used := ∅

/-- Times in whole seconds. The lock is never poisoned. -/
def reserve (store : MemoryReplayProtectionStore) (key : String) (expiresAt now : Nat) :
    Bool × MemoryReplayProtectionStore :=
  if expiresAt ≤ now then (false, store)
  else
    let used := store.used.filter (fun _ expires => now < expires)
    if used.contains key then (false, { used })
    else (true, { used := used.insert key expiresAt })

variable {store : MemoryReplayProtectionStore}

def Remembers (store : MemoryReplayProtectionStore) (key : String) (expiresAt now : Nat) : Prop :=
  now < expiresAt → store.used[key]? = some expiresAt

theorem getElem?_retain (used : ExtTreeMap String Nat) (live : now < expiresAt)
    (known : used[key]? = some expiresAt) :
    (used.filter (fun _ expires => now < expires))[key]? = some expiresAt := by
  simp [known, live]

theorem reserve_cases (store : MemoryReplayProtectionStore) (key : String)
    (expiresAt now : Nat) :
    (store.reserve key expiresAt now).1 = false ∧
        ((store.reserve key expiresAt now).2 = store ∨ (store.reserve key expiresAt now).2 =
          { used := store.used.filter (fun _ expires => now < expires) }) ∨
      now < expiresAt ∧ store.reserve key expiresAt now = (true,
          { used := (store.used.filter (fun _ expires => now < expires)).insert key expiresAt }) ∧
        key ∉ store.used.filter (fun _ expires => now < expires) := by
  unfold reserve
  by_cases late : expiresAt ≤ now
  · exact .inl (by simp [late])
  · rw [if_neg late]
    by_cases taken : (store.used.filter (fun _ expires => now < expires)).contains key
    · exact .inl (by simp [taken])
    · refine .inr ⟨Nat.lt_of_not_le late, if_neg taken, ?_⟩
      exact fun member => taken (ExtTreeMap.contains_iff_mem.mpr member)

theorem Remembers.later {later : Nat} (remembers : store.Remembers key expiresAt now)
    (forward : now ≤ later) : store.Remembers key expiresAt later :=
  fun live => remembers (Nat.lt_of_le_of_lt forward live)

/-- A reservation forgets no key that could still be used. -/
theorem Remembers.reserve {other : String} {otherExpiresAt : Nat}
    (remembers : store.Remembers key expiresAt now)
    (same : other = key → otherExpiresAt = expiresAt) :
    (store.reserve other otherExpiresAt now).2.Remembers key expiresAt now := by
  intro live
  have retained := getElem?_retain store.used live (remembers live)
  rcases store.reserve_cases other otherExpiresAt now with
    ⟨_, unchanged | pruned⟩ | ⟨_, reserved, _⟩
  · rw [unchanged]
    exact remembers live
  · rw [pruned]
    exact retained
  · rw [reserved, OrderedMap.getElem?_insert_ite]
    split
    · rename_i equal
      rw [same equal]
    · exact retained

theorem reserve_remembers (reserved : (store.reserve key expiresAt now).1 = true) :
    (store.reserve key expiresAt now).2.Remembers key expiresAt now := by
  rcases store.reserve_cases key expiresAt now with ⟨refused, _⟩ | ⟨_, accepted, _⟩
  · rw [refused] at reserved
    cases reserved
  · intro live
    rw [accepted, OrderedMap.getElem?_insert_ite, if_pos rfl]

theorem reserve_fresh (reserved : (store.reserve key expiresAt now).1 = true) :
    now < expiresAt ∧ ¬store.Remembers key expiresAt now := by
  rcases store.reserve_cases key expiresAt now with ⟨refused, _⟩ | ⟨live, _, absent⟩
  · rw [refused] at reserved
    cases reserved
  · refine ⟨live, fun remembers => absent ?_⟩
    rw [← ExtTreeMap.isSome_getElem?_iff_mem, getElem?_retain store.used live (remembers live)]
    rfl

theorem reserve_new (key : String) (live : now < expiresAt) :
    (new.reserve key expiresAt now).1 = true := by
  have absent : ¬(new.used.filter (fun _ expires => now < expires)).contains key := by
    intro taken
    have member := ExtTreeMap.mem_of_mem_filter (ExtTreeMap.contains_iff_mem.mp taken)
    exact ExtTreeMap.not_mem_empty member
  rw [reserve, if_neg (Nat.not_le.mpr live), if_neg absent]

end MemoryReplayProtectionStore

end Elura
