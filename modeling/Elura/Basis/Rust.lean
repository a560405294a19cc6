import Mathlib

/-!
Semantics shared by every model: fallible methods on a mutable receiver and
bounded machine arithmetic. `Fallible` keeps the receiver's state when a method
fails, so a model has to prove that a failing method changed nothing.
-/

namespace Elura

/-- A method taking `&mut self` and returning a `Result`: the state reached so
far survives an early return. -/
abbrev Fallible (σ ε : Type) := ExceptT ε (StateM σ)

namespace Fallible

variable {σ ε α β : Type}

def call (method : Fallible σ ε α) (state : σ) : Except ε α × σ :=
  Id.run (StateT.run (ExceptT.run method) state)

@[simp] theorem call_pure (value : α) (state : σ) :
    call (pure value : Fallible σ ε α) state = (.ok value, state) := rfl

@[simp] theorem call_throw (error : ε) (state : σ) :
    call (throw error : Fallible σ ε α) state = (.error error, state) := rfl

@[simp] theorem call_get (state : σ) :
    call (get : Fallible σ ε σ) state = (.ok state, state) := rfl

@[simp] theorem call_set (next state : σ) :
    call (set next : Fallible σ ε PUnit) state = (.ok ⟨⟩, next) := rfl

@[simp] theorem call_modify (change : σ → σ) (state : σ) :
    call (modify change : Fallible σ ε PUnit) state = (.ok ⟨⟩, change state) := rfl

@[simp] theorem call_liftExcept (result : Except ε α) (state : σ) :
    call (liftM result : Fallible σ ε α) state = (result, state) := by
  cases result <;> rfl

theorem call_bind (method : Fallible σ ε α) (next : α → Fallible σ ε β) (state : σ) :
    call (method >>= next) state =
      match call method state with
      | (.ok value, after) => call (next value) after
      | (.error error, after) => (.error error, after) := by
  change Id.run (StateT.run (ExceptT.run (method >>= next)) state) = _
  simp only [ExceptT.run_bind, StateT.run_bind, call]
  rcases (StateT.run (ExceptT.run method) state : Except ε α × σ) with ⟨_ | _, _⟩ <;> rfl

@[simp] theorem call_map (method : Fallible σ ε α) (change : α → β) (state : σ) :
    call (change <$> method) state =
      match call method state with
      | (.ok value, after) => (.ok (change value), after)
      | (.error error, after) => (.error error, after) := by
  rw [map_eq_pure_bind, call_bind]
  rcases call method state with ⟨_ | _, _⟩ <;> rfl

@[simp] theorem call_ite (condition : Prop) [Decidable condition]
    (yes no : Fallible σ ε α) (state : σ) :
    call (if condition then yes else no) state =
      if condition then call yes state else call no state := by
  split <;> rfl

section Preserves

variable {invariant : σ → Prop}

def Preserves (invariant : σ → Prop) (method : Fallible σ ε α) : Prop :=
  ∀ state, invariant state → invariant (call method state).2

theorem preserves_pure (value : α) : Preserves invariant (pure value : Fallible σ ε α) :=
  fun _ held => held

theorem preserves_throw_bind (error : ε) (next : α → Fallible σ ε β) :
    Preserves invariant (throw error >>= next) :=
  fun _ held => held

theorem preserves_throw (error : ε) : Preserves invariant (throw error : Fallible σ ε α) :=
  fun _ held => held

theorem preserves_liftExcept (result : Except ε α) :
    Preserves invariant (liftM result : Fallible σ ε α) := by
  intro state held
  rw [call_liftExcept]
  exact held

theorem preserves_set {next : σ} (held : invariant next) :
    Preserves invariant (set next : Fallible σ ε PUnit) :=
  fun _ _ => held

theorem preserves_modify {change : σ → σ}
    (kept : ∀ state, invariant state → invariant (change state)) :
    Preserves invariant (modify change : Fallible σ ε PUnit) :=
  kept

theorem preserves_bind {method : Fallible σ ε α} {next : α → Fallible σ ε β}
    (first : Preserves invariant method) (second : ∀ value, Preserves invariant (next value)) :
    Preserves invariant (method >>= next) := by
  intro state held
  have reached := first state held
  rw [call_bind]
  rcases outcome : call method state with ⟨result, after⟩
  rw [outcome] at reached
  cases result with
  | error => exact reached
  | ok value => exact second value after reached

theorem preserves_get_bind {next : σ → Fallible σ ε α}
    (rest : ∀ state, invariant state → Preserves invariant (next state)) :
    Preserves invariant (get >>= next) := by
  intro state held
  rw [call_bind]
  exact rest state held state held

end Preserves

section Transactional

variable {state : σ} {condition : Prop} [Decidable condition] {yes no : Fallible σ ε α}

/-- A call that fails leaves the state as it was. -/
def Transactional (method : Fallible σ ε α) (state : σ) : Prop :=
  ∀ error after, call method state = (.error error, after) → after = state

theorem transactional_throw (error : ε) :
    Transactional (throw error : Fallible σ ε α) state := by
  rintro _ _ ⟨⟩
  rfl

theorem transactional_commit (next : σ) (value : α) :
    Transactional (do set next; pure value : Fallible σ ε α) state := by
  rintro _ _ ⟨⟩

theorem transactional_ite (first : Transactional yes state) (second : Transactional no state) :
    Transactional (if condition then yes else no) state := by
  split <;> assumption

theorem transactional_get_bind {next : σ → Fallible σ ε α}
    (rest : Transactional (next state) state) : Transactional (get >>= next) state := rest

theorem transactional_lift_bind {result : Except ε α} {next : α → Fallible σ ε β}
    (rest : ∀ value, Transactional (next value) state) :
    Transactional (liftM result >>= next) state := by
  cases result with
  | error error => exact transactional_throw error
  | ok value => exact rest value

end Transactional

end Fallible

def u64Max : Nat := 2 ^ 64 - 1

def u32Max : Nat := 2 ^ 32 - 1

def i32Max : Nat := 2 ^ 31 - 1

/-- What `value as i32` keeps of a number. -/
def asI32 (value : Nat) : Int := Int.bmod value (2 ^ 32)

theorem asI32_of_le {value : Nat} (bounded : value ≤ i32Max) : asI32 value = value := by
  have small : value ≤ 2147483647 := bounded
  exact Int.bmod_eq_of_le (by omega) (by omega)

def saturatingAdd (left right : Nat) : Nat := min (left + right) u64Max

def checkedAdd (left right : Nat) : Option Nat :=
  if left + right ≤ u64Max then some (left + right) else none

theorem le_saturatingAdd {value left right : Nat}
    (bounded : value ≤ u64Max) (below : value ≤ left + right) :
    value ≤ saturatingAdd left right := by
  simp only [saturatingAdd]
  omega

theorem saturatingAdd_of_le {left right : Nat} (bounded : left + right ≤ u64Max) :
    saturatingAdd left right = left + right :=
  Nat.min_eq_left bounded

theorem checkedAdd_of_le {left right : Nat} (bounded : left + right ≤ u64Max) :
    checkedAdd left right = some (left + right) := by
  simp [checkedAdd, bounded]

theorem checkedAdd_eq_some {left right total : Nat} (found : checkedAdd left right = some total) :
    total = left + right ∧ total ≤ u64Max := by
  simp only [checkedAdd] at found
  split at found
  · simp only [Option.some.injEq] at found
    omega
  · simp at found

/-- The characters `str::trim` removes: the `White_Space` property of Unicode. -/
def isWhitespace (character : Char) : Bool :=
  let code := character.toNat
  (9 ≤ code && code ≤ 13) || code == 0x20 || code == 0x85 || code == 0xA0 || code == 0x1680 ||
    (0x2000 ≤ code && code ≤ 0x200A) || code == 0x2028 || code == 0x2029 || code == 0x202F ||
    code == 0x205F || code == 0x3000

/-- What `text.trim().is_empty()` says. -/
def isBlank (text : String) : Bool :=
  text.toList.all isWhitespace

theorem bind_ok {ε α β : Type} {first : Except ε α} {next : α → Except ε β} {result : β}
    (succeeded : first >>= next = .ok result) :
    ∃ value, first = .ok value ∧ next value = .ok result := by
  cases first with
  | error => cases succeeded
  | ok value => exact ⟨value, rfl, succeeded⟩

/-- What `text.parse::<u32>()` returns: decimal digits after at most one plus sign. -/
def parseU32 (text : String) : Option UInt32 :=
  let digits := match text.toList with
    | '+' :: rest => rest
    | all => all
  if digits ≠ [] ∧ digits.all Char.isDigit then
    let value := Nat.ofDigitChars 10 digits 0
    if value ≤ u32Max then some (UInt32.ofNat value) else none
  else none

theorem parseU32_toString (value : UInt32) : parseU32 (toString value) = some value := by
  have digits : (toString value).toList = Nat.toDigits 10 value.toNat := Nat.toList_repr
  have decimal : ∀ digit ∈ Nat.toDigits 10 value.toNat, digit.isDigit = true := fun _ listed =>
    Nat.isDigit_of_mem_toDigits (by decide) (by decide) listed
  have bounded : value.toNat ≤ u32Max := by
    have := value.toNat_lt
    simp only [u32Max]
    omega
  have unsigned : (match Nat.toDigits 10 value.toNat with
      | '+' :: rest => rest
      | all => all) = Nat.toDigits 10 value.toNat := by
    split
    · rename_i rest signed
      have plus := decimal '+' (by rw [signed]; exact List.mem_cons_self)
      exact absurd plus (by decide)
    · rfl
  simp only [parseU32, digits, unsigned, Nat.ofDigitChars_ten_toDigits]
  rw [if_pos ⟨Nat.toDigits_ne_nil, List.all_eq_true.mpr decimal⟩, if_pos bounded,
    UInt32.ofNat_toNat]

/-- What `text.split_once(separator)` returns: the texts around its first occurrence. -/
def splitOnce (text : String) (separator : Char) : Option (String × String) :=
  match text.toList.span (· ≠ separator) with
  | (_, []) => none
  | (before, _ :: after) => some (String.ofList before, String.ofList after)

/-- An order in which a hash set hands out its members. -/
structure HashOrder (α : Type) [DecidableEq α] where
  list : Finset α → List α
  nodup : ∀ members, (list members).Nodup
  mem : ∀ members element, element ∈ list members ↔ element ∈ members

/-- Durations in nanoseconds, for code that accepts any `Duration`. -/
abbrev Duration := Nat

def Duration.ofSecs (seconds : Nat) : Duration :=
  seconds * 1000000000

def Duration.asSecs (duration : Duration) : Nat :=
  duration / 1000000000

end Elura
