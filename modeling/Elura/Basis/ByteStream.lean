import Elura.Basis.Rust

/-!
A byte stream that arrives in pieces. Methods that only read exact numbers of bytes see the bytes
and not the pieces; two rules say what such a method takes off the stream.
-/

namespace Elura

open List

/-- What is still to come, in the pieces that single reads return. -/
structure ByteStream where
  pieces : List (List UInt8)

namespace ByteStream

variable {ε α β : Type}
variable {count : Nat} {method : Fallible ByteStream ε α} {next : α → Fallible ByteStream ε β}

def bytes (stream : ByteStream) : List UInt8 := stream.pieces.flatten

/-- Reads until enough bytes are there; the rest of the last piece stays in the stream. -/
def takeExact : Nat → List (List UInt8) → Option (List UInt8) × List (List UInt8)
  | 0, pieces => (some [], pieces)
  | _ + 1, [] => (none, [])
  | missing + 1, piece :: pieces =>
    if missing + 1 < piece.length then
      (some (piece.take (missing + 1)), piece.drop (missing + 1) :: pieces)
    else
      let (taken, rest) := takeExact (missing + 1 - piece.length) pieces
      (taken.map (piece ++ ·), rest)

theorem takeExact_ok {pieces : List (List UInt8)} (enough : count ≤ pieces.flatten.length) :
    (takeExact count pieces).1 = some (pieces.flatten.take count) ∧
      (takeExact count pieces).2.flatten = pieces.flatten.drop count := by
  induction pieces generalizing count with
  | nil =>
    cases Nat.le_zero.mp enough
    exact ⟨rfl, rfl⟩
  | cons piece _ ih =>
    cases count with
    | zero => exact ⟨rfl, rfl⟩
    | succ missing =>
      simp only [flatten_cons, length_append] at enough
      simp only [takeExact, flatten_cons]
      by_cases inside : missing + 1 < piece.length
      · rw [if_pos inside]
        simp only [flatten_cons]
        rw [take_append_of_le_length (by omega), drop_append_of_le_length (by omega)]
        exact ⟨rfl, rfl⟩
      · rw [if_neg inside]
        obtain ⟨taken, rest⟩ := @ih (missing + 1 - piece.length) (by omega)
        rw [take_append, drop_append, take_of_length_le (by omega),
          drop_of_length_le (by omega)]
        simp only [taken]
        trivial

theorem takeExact_eof {pieces : List (List UInt8)} (short : pieces.flatten.length < count) :
    takeExact count pieces = (none, []) := by
  induction pieces generalizing count with
  | nil =>
    obtain ⟨missing, rfl⟩ : ∃ missing, count = missing + 1 := ⟨count - 1, by omega⟩
    rfl
  | cons _ _ ih =>
    simp only [flatten_cons, length_append] at short
    obtain ⟨missing, rfl⟩ : ∃ missing, count = missing + 1 := ⟨count - 1, by omega⟩
    rw [takeExact, if_neg (by omega), ih (by omega)]
    rfl

/-- `read_exact`; at the end of the stream it fails, with the last bytes taken. -/
def readExact (eof : ε) (count : Nat) : Fallible ByteStream ε (List UInt8) := do
  let stream ← get
  let (taken, rest) := takeExact count stream.pieces
  set ({ pieces := rest } : ByteStream)
  match taken with
  | some taken => return taken
  | none => throw eof

theorem call_readExact (eof : ε) (count : Nat) (stream : ByteStream) :
    (readExact eof count).call stream =
      (match (takeExact count stream.pieces).1 with
        | some taken => .ok taken
        | none => .error eof, { pieces := (takeExact count stream.pieces).2 }) := by
  simp only [readExact, Fallible.call_bind, Fallible.call_get]
  cases (takeExact count stream.pieces).1 with
  | none | some => rfl

/-- On a stream that starts with these bytes the method takes them and returns this value. -/
def Reads (method : Fallible ByteStream ε α) (taken : List UInt8) (value : α) : Prop :=
  ∀ stream after, stream.bytes = taken ++ after →
    ∃ rest, method.call stream = (.ok value, rest) ∧ rest.bytes = after

theorem Reads.pure (value : α) : Reads (Pure.pure value : Fallible ByteStream ε α) [] value :=
  fun stream _ starts => ⟨stream, rfl, starts⟩

theorem Reads.bind {first second : List UInt8} {value : α} {result : β}
    (reads : Reads method first value) (continues : Reads (next value) second result) :
    Reads (method >>= next) (first ++ second) result := by
  intro stream after starts
  rw [append_assoc] at starts
  obtain ⟨middle, called, left⟩ := reads stream (second ++ after) starts
  obtain ⟨rest, calledNext, leftNext⟩ := continues middle after left
  refine ⟨rest, ?_, leftNext⟩
  simp only [Fallible.call_bind, called, calledNext]

theorem Reads.lift {result : Except ε α} {value : α} (isOk : result = .ok value) :
    Reads (liftM result : Fallible ByteStream ε α) [] value := by
  intro stream after starts
  refine ⟨stream, ?_, starts⟩
  rw [Fallible.call_liftExcept, isOk]

theorem Reads.readExact (eof : ε) {taken : List UInt8} (exact : taken.length = count) :
    Reads (readExact eof count) taken taken := by
  intro stream after starts
  subst exact
  have joined : stream.pieces.flatten = taken ++ after := starts
  have enough : taken.length ≤ stream.pieces.flatten.length := by
    rw [joined, length_append]
    omega
  obtain ⟨read, rest⟩ := takeExact_ok enough
  rw [joined, take_left] at read
  rw [joined, drop_left] at rest
  refine ⟨{ pieces := (takeExact taken.length stream.pieces).2 }, ?_, rest⟩
  rw [call_readExact, read]

/-- The method takes at most this many bytes off any stream, whatever it returns. -/
def TakesAtMost (method : Fallible ByteStream ε α) (limit : Nat) : Prop :=
  ∀ stream, stream.bytes.length ≤ (method.call stream).2.bytes.length + limit

theorem TakesAtMost.mono {limit larger : Nat} (takes : TakesAtMost method limit)
    (bound : limit ≤ larger) : TakesAtMost method larger :=
  fun stream => Nat.le_trans (takes stream) (Nat.add_le_add_left bound _)

theorem TakesAtMost.pure (value : α) :
    TakesAtMost (Pure.pure value : Fallible ByteStream ε α) 0 :=
  fun _ => le_rfl

theorem TakesAtMost.throw (error : ε) :
    TakesAtMost (throw error : Fallible ByteStream ε α) 0 :=
  fun _ => le_rfl

theorem TakesAtMost.lift (result : Except ε α) :
    TakesAtMost (liftM result : Fallible ByteStream ε α) 0 := by
  intro stream
  rw [Fallible.call_liftExcept]
  exact le_rfl

theorem TakesAtMost.bind_returned {first second : Nat} (takes : TakesAtMost method first)
    (continues : ∀ stream value rest, method.call stream = (.ok value, rest) →
      TakesAtMost (next value) second) : TakesAtMost (method >>= next) (first + second) := by
  intro stream
  have before := takes stream
  rw [Fallible.call_bind]
  rcases called : method.call stream with ⟨outcome, middle⟩
  rw [called] at before
  cases outcome with
  | error => exact Nat.le_trans before (by simp only; omega)
  | ok value =>
    have after := continues stream value middle called middle
    simp only at before ⊢
    omega

theorem TakesAtMost.bind {first second : Nat} (takes : TakesAtMost method first)
    (continues : ∀ value, TakesAtMost (next value) second) :
    TakesAtMost (method >>= next) (first + second) :=
  takes.bind_returned (fun _ value _ _ => continues value)

theorem length_readExact {eof : ε} {stream rest : ByteStream} {taken : List UInt8}
    (called : (readExact eof count).call stream = (.ok taken, rest)) : taken.length = count := by
  rw [call_readExact] at called
  by_cases enough : count ≤ stream.pieces.flatten.length
  · rw [(takeExact_ok enough).1] at called
    cases called
    exact length_take_of_le enough
  · rw [takeExact_eof (Nat.not_le.mp enough)] at called
    cases called

theorem TakesAtMost.readExact (eof : ε) (count : Nat) :
    TakesAtMost (readExact eof count) count := by
  intro stream
  rw [call_readExact]
  by_cases enough : count ≤ stream.pieces.flatten.length
  · have rest := (takeExact_ok enough).2
    simp only [bytes, rest, length_drop]
    omega
  · rw [takeExact_eof (Nat.not_le.mp enough)]
    simp only [bytes, flatten_nil, length_nil]
    omega

end ByteStream

end Elura
