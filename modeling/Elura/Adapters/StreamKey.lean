import Elura.Basis.Rust

/-!
Which names the Redis adapter takes for a session-control stream: one scan that watches the braces
of a hash tag, and what the accepted names look like.
-/

namespace Elura.StreamKey

open List

variable {rest : List Char} {index : Nat} {tagStart : Option Nat} {tagClosed : Bool}

def isPlain (letter : Char) : Bool :=
  letter.isAlphanum || letter = '-' || letter = '_' || letter = '.' || letter = ':'

/-- The loop of `valid_stream_key`. The source reads bytes; those of a longer character are
refused like the character itself, and before it every character is one byte. -/
def scan : List Char → Nat → Option Nat → Bool → Bool
  | [], _, tagStart, _ => tagStart.isNone
  | letter :: rest, index, tagStart, tagClosed =>
    if !isPlain letter && letter ≠ '{' && letter ≠ '}' then false
    else if letter = '{' then
      if tagStart.isSome || tagClosed then false else scan rest (index + 1) (some index) tagClosed
    else if letter = '}' then
      match tagStart with
      | none => false
      | some start => if index = start + 1 then false else scan rest (index + 1) none true
    else scan rest (index + 1) tagStart tagClosed

def validStreamKey (stream : String) : Bool :=
  if isBlank stream || 256 < stream.utf8ByteSize then false else scan stream.toList 0 none false

def Plain (letters : List Char) : Prop :=
  ∀ letter ∈ letters, isPlain letter

theorem exists_plain_front (letters : List Char) : ∃ front rest, letters = front ++ rest ∧
    Plain front ∧ ∀ letter ∈ rest.head?, isPlain letter = false := by
  refine ⟨letters.takeWhile isPlain, letters.dropWhile isPlain, takeWhile_append_dropWhile.symm,
    fun letter => mem_takeWhile_imp, fun letter first => ?_⟩
  have stops := head?_dropWhile_not isPlain letters
  rwa [first] at stops

theorem scan_append {front : List Char} (plain : Plain front) :
    scan (front ++ rest) index tagStart tagClosed =
      scan rest (index + front.length) tagStart tagClosed := by
  induction front generalizing index with
  | nil => rfl
  | cons letter front ih =>
    obtain ⟨first, others⟩ := forall_mem_cons.mp plain
    have noOpen : letter ≠ '{' := by rintro rfl; exact absurd first (by decide)
    have noClose : letter ≠ '}' := by rintro rfl; exact absurd first (by decide)
    simp only [cons_append, scan, first, noOpen, noClose]
    rw [length_cons, Nat.add_comm front.length, ← Nat.add_assoc]
    exact ih others

theorem scan_stops {letter : Char} (special : isPlain letter = false)
    (accepted : scan (letter :: rest) index tagStart tagClosed = true) :
    letter = '{' ∧ tagStart = none ∧ tagClosed = false ∧
        scan rest (index + 1) (some index) false = true ∨
      letter = '}' ∧ (∃ start, tagStart = some start ∧ index ≠ start + 1) ∧
        scan rest (index + 1) none true = true := by
  simp only [scan, special] at accepted
  split_ifs at accepted with _ opens again closes
  · rw [Bool.or_eq_true, not_or, Option.not_isSome_iff_eq_none, Bool.not_eq_true] at again
    exact .inl ⟨opens, again.1, again.2, again.2 ▸ accepted⟩
  · split at accepted
    · cases accepted
    · split_ifs at accepted with empty
      exact .inr ⟨closes, ⟨_, rfl, empty⟩, accepted⟩
  · simp_all

theorem scan_closed : scan rest index none true = true ↔ Plain rest := by
  constructor
  · intro accepted
    obtain ⟨front, rest, rfl, plain, stops⟩ := exists_plain_front rest
    rw [scan_append plain] at accepted
    cases rest with
    | nil => rwa [append_nil]
    | cons letter =>
      rcases scan_stops (stops letter rfl) accepted with ⟨_, _, again, _⟩ | ⟨_, ⟨_, none_, _⟩, _⟩
      · cases again
      · cases none_
  · intro plain
    rw [← append_nil rest, scan_append plain]
    rfl

theorem scan_opened {start : Nat} : scan rest index (some start) false = true ↔
    ∃ tag after, rest = tag ++ '}' :: after ∧ Plain tag ∧ Plain after ∧
      index + tag.length ≠ start + 1 := by
  constructor
  · intro accepted
    obtain ⟨tag, rest, rfl, plain, stops⟩ := exists_plain_front rest
    rw [scan_append plain] at accepted
    cases rest with
    | nil => cases accepted
    | cons letter =>
      rcases scan_stops (stops letter rfl) accepted with
        ⟨_, none_, _⟩ | ⟨rfl, ⟨_, ⟨⟩, filled⟩, closed⟩
      · cases none_
      · exact ⟨tag, _, rfl, plain, scan_closed.mp closed, filled⟩
  · rintro ⟨tag, after, rfl, plain, following, filled⟩
    rw [scan_append plain, scan, if_neg (by decide), if_neg (by decide), if_pos rfl]
    simp only [if_neg filled]
    exact scan_closed.mpr following

theorem scan_start : scan rest index none false = true ↔
    Plain rest ∨ ∃ before tag after, rest = before ++ '{' :: (tag ++ '}' :: after) ∧
      Plain before ∧ Plain tag ∧ Plain after ∧ tag ≠ [] := by
  constructor
  · intro accepted
    obtain ⟨before, rest, rfl, plain, stops⟩ := exists_plain_front rest
    rw [scan_append plain] at accepted
    cases rest with
    | nil => exact .inl (by rwa [append_nil])
    | cons letter =>
      rcases scan_stops (stops letter rfl) accepted with
        ⟨rfl, _, _, opened⟩ | ⟨_, ⟨_, none_, _⟩, _⟩
      · obtain ⟨tag, after, rfl, inside, following, filled⟩ := scan_opened.mp opened
        refine .inr ⟨before, tag, after, rfl, plain, inside, following, ?_⟩
        rintro rfl
        exact filled rfl
      · cases none_
  · rintro (plain | ⟨before, tag, after, rfl, plain, inside, following, filled⟩)
    · rw [← append_nil rest, scan_append plain]
      rfl
    · rw [scan_append plain, scan, if_neg (by decide), if_pos rfl, if_neg (by decide)]
      have positive := length_pos_iff.mpr filled
      exact scan_opened.mpr ⟨tag, after, rfl, inside, following, by omega⟩

theorem not_isWhitespace {letter : Char} (plain : isPlain letter) :
    isWhitespace letter = false := by
  have small : ∀ code < 128, isPlain (Char.ofNat code) → isWhitespace (Char.ofNat code) = false := by
    decide
  have ascii : letter.toNat < 128 := by
    simp [isPlain, Char.isAlphanum, Char.isAlpha, Char.isUpper, Char.isLower, Char.isDigit,
      UInt32.le_iff_toNat_le, Char.ext_iff, ← UInt32.toNat_inj] at plain
    omega
  rw [← Char.ofNat_toNat letter] at plain ⊢
  exact small _ ascii plain

/-- The accepted names are plain, up to one pair of braces around a tag. -/
theorem validStreamKey_iff (stream : String) : validStreamKey stream = true ↔
    stream ≠ "" ∧ stream.utf8ByteSize ≤ 256 ∧ (Plain stream.toList ∨ ∃ before tag after,
      stream.toList = before ++ '{' :: (tag ++ '}' :: after) ∧ Plain before ∧ Plain tag ∧
        Plain after ∧ tag ≠ []) := by
  rw [← @scan_start _ 0, validStreamKey]
  split_ifs with refused
  · refine iff_of_false (by simp) ?_
    rintro ⟨named, short, accepted⟩
    have blank : isBlank stream = true := by
      rw [Bool.or_eq_true, decide_eq_true_eq] at refused
      exact refused.resolve_right (Nat.not_lt.mpr short)
    cases letters : stream.toList with
    | nil => exact named (String.toList_eq_nil_iff.mp letters)
    | cons first others =>
      -- The first letter is plain or opens the tag, so it is no white space.
      rw [isBlank, letters, all_cons, Bool.and_eq_true] at blank
      rw [letters] at accepted
      cases plain : isPlain first with
      | true => exact absurd blank.1 (by simp [not_isWhitespace plain])
      | false =>
        rcases scan_stops plain accepted with ⟨rfl, _⟩ | ⟨_, ⟨_, none_, _⟩, _⟩
        · exact absurd blank.1 (by decide)
        · cases none_
  · rw [Bool.or_eq_true, not_or, decide_eq_true_eq, Nat.not_lt] at refused
    refine ⟨fun accepted => ⟨?_, refused.2, accepted⟩, fun accepted => accepted.2.2⟩
    rintro rfl
    exact refused.1 rfl

end Elura.StreamKey
