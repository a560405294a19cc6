import Elura.Basis.OrderedMap
import Mathlib.Data.Finset.Basic

/-!
Keys that expire. An entry with an expiry is there until that moment; a write to
a key that has expired starts afresh, and a container that becomes empty takes
its key with it.
-/

namespace Elura

structure Timed (α : Type) where
  value : α
  expiresAt : Option Nat

def Timed.alive {α : Type} (entry : Timed α) (now : Nat) : Bool :=
  entry.expiresAt.all (now < ·)

abbrev Volatile (κ α : Type) := κ → Option (Timed α)

class Container (α : Type) where
  blank : α
  isBlank : α → Bool
  isBlank_iff : ∀ value, isBlank value = true ↔ value = blank

instance {α : Type} : Container (Finset α) where
  blank := ∅
  isBlank := fun members => members.card = 0
  isBlank_iff := fun members => by rw [decide_eq_true_eq, Finset.card_eq_zero]

instance {α β : Type} [Ord α] [Std.TransOrd α] : Container (Std.ExtTreeMap α β) where
  blank := ∅
  isBlank := fun table => table.isEmpty
  isBlank_iff := fun _ => Std.ExtTreeMap.isEmpty_iff

namespace Volatile

variable {κ α : Type} [DecidableEq κ] (keys : Volatile κ α) (now : Nat) (key : κ)

omit [DecidableEq κ] in
def find : Option (Timed α) :=
  (keys key).filter (·.alive now)

omit [DecidableEq κ] in
def get : Option α :=
  (keys.find now key).map Timed.value

def put (value : α) (expiry : Nat) : Volatile κ α :=
  Function.update keys key (some { value, expiresAt := some expiry })

def delete : Volatile κ α :=
  Function.update keys key none

def expire (expiry : Nat) : Volatile κ α :=
  match keys.find now key with
  | some entry => keys.put key entry.value expiry
  | none => keys

def expireAll (members : Finset κ) (expiry : Nat) : Volatile κ α :=
  fun key => if key ∈ members then keys.expire now key expiry key else keys key

section Container

variable [Container α]

omit [DecidableEq κ] in
def content : α :=
  (keys.get now key).getD Container.blank

def alter (change : α → α) : Volatile κ α :=
  Function.update keys key
    (if Container.isBlank (change (keys.content now key)) then none
    else some
      { value := change (keys.content now key)
        expiresAt := (keys.find now key).bind Timed.expiresAt })

end Container

variable {keys now key} {other : κ} {expiry : Nat}

theorem find_update (entry : Option (Timed α)) :
    find (Function.update keys key entry) now other =
      if other = key then entry.filter (·.alive now) else keys.find now other := by
  unfold find
  rw [Function.update_apply]
  split
  · rfl
  · rfl

theorem find_put (fresh : now < expiry) (value : α) :
    (keys.put key value expiry).find now other =
      if other = key then some { value, expiresAt := some expiry } else keys.find now other := by
  have kept : Timed.alive { value, expiresAt := some expiry } now = true := decide_eq_true fresh
  rw [put, find_update, Option.filter_some, if_pos kept]

theorem find_delete :
    (keys.delete key).find now other = if other = key then none else keys.find now other :=
  find_update none

theorem find_expire (fresh : now < expiry) : (keys.expire now key expiry).find now other =
    if other = key then
      (keys.find now key).map (fun entry => { value := entry.value, expiresAt := some expiry })
    else keys.find now other := by
  unfold expire
  split
  · rename_i entry found
    rw [find_put fresh, found]
    rfl
  · rename_i absent
    split
    · rename_i same
      rw [same, absent]
      rfl
    · rfl

omit [DecidableEq κ] in
theorem find_later {later : Nat} (forward : now ≤ later) {entry : Timed α} :
    keys.find later key = some entry ↔ keys.find now key = some entry ∧ entry.alive later = true := by
  have earlier (live : entry.alive later = true) : entry.alive now = true := by
    unfold Timed.alive at live ⊢
    cases expires : entry.expiresAt with
    | none => rfl
    | some =>
      rw [expires] at live
      exact decide_eq_true (Nat.lt_of_le_of_lt forward (of_decide_eq_true live))
  simp only [find, Option.filter_eq_some_iff]
  exact ⟨fun both => ⟨⟨both.1, earlier both.2⟩, both.2⟩, fun both => ⟨both.1.1, both.2⟩⟩

omit [DecidableEq κ] in
theorem get_eq_some_iff {value : α} :
    keys.get now key = some value ↔ ∃ entry, keys.find now key = some entry ∧ entry.value = value :=
  Option.map_eq_some_iff

section Container

variable [Container α] {change : α → α}

omit [DecidableEq κ] in
theorem content_of_find {entry : Timed α} (found : keys.find now key = some entry) :
    keys.content now key = entry.value := by
  rw [content, get, found]
  rfl

omit [DecidableEq κ] in
theorem content_of_not_find (absent : keys.find now key = none) :
    keys.content now key = Container.blank := by
  rw [content, get, absent]
  rfl

theorem find_alter : (keys.alter now key change).find now other =
    if other = key then
      (if Container.isBlank (change (keys.content now key)) then none
      else some
        { value := change (keys.content now key)
          expiresAt := (keys.find now key).bind Timed.expiresAt })
    else keys.find now other := by
  rw [alter, find_update]
  split
  · split
    · rfl
    · rw [Option.filter_eq_some_iff]
      refine ⟨rfl, ?_⟩
      -- the expiry is that of an entry which is still there
      cases found : keys.find now key with
      | none => rfl
      | some => exact (Option.filter_eq_some_iff.mp found).2
  · rfl

theorem content_alter : (keys.alter now key change).content now other =
    if other = key then change (keys.content now key) else keys.content now other := by
  unfold content get
  rw [find_alter]
  split
  · split
    · rename_i blank
      exact ((Container.isBlank_iff _).mp blank).symm
    · rfl
  · rfl

theorem content_expire (fresh : now < expiry) :
    (keys.expire now key expiry).content now other = keys.content now other := by
  unfold content get
  rw [find_expire fresh]
  split
  · rename_i same
    rw [same, Option.map_map]
    rfl
  · rfl

end Container

end Volatile

end Elura
