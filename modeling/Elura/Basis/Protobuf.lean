import Mathlib.Algebra.Ring.Nat
import Mathlib.Data.List.Basic

/-!
The Protobuf wire format. A message is a list of fields, each a key and a value; a reader reads
all of them before it looks at any, and what follows a field never changes how it is read.
-/

namespace Elura.Protobuf

open List

variable (wireType : WireType) (rest : List UInt8)

inductive WireType
  | varint
  | sixtyFourBit
  | lengthDelimited
  | startGroup
  | endGroup
  | thirtyTwoBit
  deriving DecidableEq, Repr

def WireType.number : WireType → Nat
  | .varint => 0
  | .sixtyFourBit => 1
  | .lengthDelimited => 2
  | .startGroup => 3
  | .endGroup => 4
  | .thirtyTwoBit => 5

def WireType.tryFrom : Nat → Option WireType
  | 0 => some .varint
  | 1 => some .sixtyFourBit
  | 2 => some .lengthDelimited
  | 3 => some .startGroup
  | 4 => some .endGroup
  | 5 => some .thirtyTwoBit
  | _ => none

theorem WireType.tryFrom_number :
    WireType.tryFrom wireType.number = some wireType := by
  cases wireType <;> rfl

theorem WireType.number_lt : wireType.number < 8 := by
  cases wireType <;> decide

/-- What a field holds. Nothing reads the inside of a group or of a fixed-width number. -/
inductive Value
  | number (value : Nat)
  | bytes (content : List UInt8)
  | fixed (width : Nat)
  | group
  deriving DecidableEq, Repr

structure Field where
  tag : Nat
  value : Value
  deriving DecidableEq, Repr

/-- Seven bits a byte, lowest first. The last byte that may be read has room for one bit. -/
def decodeVarintFrom : Nat → List UInt8 → Option (Nat × List UInt8)
  | 0, _ => none
  | _ + 1, [] => none
  | left + 1, byte :: rest =>
    if byte.toNat < 128 then
      if left = 0 ∧ 2 ≤ byte.toNat then none else some (byte.toNat, rest)
    else
      match decodeVarintFrom left rest with
      | none => none
      | some (high, rest) => some (byte.toNat - 128 + 128 * high, rest)

def decodeVarint (bytes : List UInt8) : Option (Nat × List UInt8) := decodeVarintFrom 10 bytes

def encodeVarintFrom : Nat → Nat → List UInt8
  | 0, _ => []
  | left + 1, value =>
    if value < 128 then [.ofNat value]
    else .ofNat (value % 128 + 128) :: encodeVarintFrom left (value / 128)

def encodeVarint (value : Nat) : List UInt8 := encodeVarintFrom 10 value

def decodeKey (bytes : List UInt8) : Option (Nat × WireType × List UInt8) := do
  let (key, rest) ← decodeVarint bytes
  if 2 ^ 32 ≤ key then none
  let wireType ← WireType.tryFrom (key % 8)
  if key / 8 < 1 then none
  return (key / 8, wireType, rest)

def takeBytes (count : Nat) (bytes : List UInt8) : Option (List UInt8 × List UInt8) :=
  if bytes.length < count then none else some (bytes.take count, bytes.drop count)

def skipGroup (read : Nat → WireType → List UInt8 → Option (Value × List UInt8)) (tag : Nat) :
    Nat → List UInt8 → Option (List UInt8)
  | 0, _ => none
  | fuel + 1, bytes =>
    match decodeKey bytes with
    | none => none
    | some (inner, .endGroup, rest) => if inner = tag then some rest else none
    | some (inner, wireType, rest) =>
      match read inner wireType rest with
      | none => none
      | some (_, rest) => skipGroup read tag fuel rest

/-- The first argument is the nesting that is still allowed. -/
def readValue : Nat → Nat → WireType → List UInt8 → Option (Value × List UInt8)
  | 0, _, _, _ => none
  | _ + 1, _, .varint, bytes =>
    (decodeVarint bytes).map (fun (value, rest) => (.number value, rest))
  | _ + 1, _, .sixtyFourBit, bytes =>
    (takeBytes 8 bytes).map (fun (_, rest) => (.fixed 8, rest))
  | _ + 1, _, .thirtyTwoBit, bytes =>
    (takeBytes 4 bytes).map (fun (_, rest) => (.fixed 4, rest))
  | _ + 1, _, .lengthDelimited, bytes =>
    match decodeVarint bytes with
    | none => none
    | some (length, rest) =>
      (takeBytes length rest).map (fun (content, rest) => (.bytes content, rest))
  | depth + 1, tag, .startGroup, bytes =>
    (skipGroup (readValue depth) tag bytes.length bytes).map (fun rest => (.group, rest))
  | _ + 1, _, .endGroup, _ => none

def recursionLimit : Nat := 100

/-- Every round takes a key, so a message has at most as many fields as bytes. -/
def readFields : Nat → List UInt8 → Option (List Field)
  | _, [] => some []
  | 0, _ :: _ => none
  | fuel + 1, byte :: bytes =>
    match decodeKey (byte :: bytes) with
    | none => none
    | some (tag, wireType, rest) =>
      match readValue recursionLimit tag wireType rest with
      | none => none
      | some (value, rest) => (readFields fuel rest).map ({ tag, value } :: ·)

def parse (bytes : List UInt8) : Option (List Field) := readFields bytes.length bytes

def encodeKey (tag : Nat) (wireType : WireType) : List UInt8 :=
  encodeVarint (tag * 8 + wireType.number)

def Field.encode (field : Field) : List UInt8 :=
  match field.value with
  | .number value => encodeKey field.tag .varint ++ encodeVarint value
  | .bytes content =>
    encodeKey field.tag .lengthDelimited ++ (encodeVarint content.length ++ content)
  | .fixed _ => []
  | .group => []

structure Field.Writable (field : Field) : Prop where
  positive : 0 < field.tag
  small : field.tag < 2 ^ 29
  value : match field.value with
    | .number value => value < 2 ^ 64
    | .bytes content => content.length < 2 ^ 64
    | .fixed _ => False
    | .group => False

def encode (fields : List Field) : List UInt8 := fields.flatMap Field.encode

/-- The value an absent enumeration field has: zero, or the first one if none is zero. -/
def enumDefault (numbers : List Nat) : Nat := if 0 ∈ numbers then 0 else numbers.headD 0

theorem decodeVarintFrom_encodeVarintFrom {left value : Nat}
    (small : value < 2 ^ (7 * left + 1)) :
    decodeVarintFrom (left + 1) (encodeVarintFrom (left + 1) value ++ rest) =
      some (value, rest) := by
  induction left generalizing value with
  | zero =>
    have byte : (UInt8.ofNat value).toNat = value :=
      UInt8.toNat_ofNat_of_lt (show value < 256 by omega)
    rw [encodeVarintFrom, if_pos (by omega)]
    simp only [cons_append, nil_append, decodeVarintFrom, byte]
    rw [if_pos (by omega), if_neg (by omega)]
  | succ left ih =>
    rw [encodeVarintFrom]
    by_cases last : value < 128
    · have byte : (UInt8.ofNat value).toNat = value :=
      UInt8.toNat_ofNat_of_lt (show value < 256 by omega)
      rw [if_pos last]
      simp only [cons_append, nil_append, decodeVarintFrom, byte]
      rw [if_pos last, if_neg (by omega)]
    · have byte : (UInt8.ofNat (value % 128 + 128)).toNat = value % 128 + 128 :=
        UInt8.toNat_ofNat_of_lt (show value % 128 + 128 < 256 by omega)
      have high : value / 128 < 2 ^ (7 * left + 1) := by
        rw [Nat.div_lt_iff_lt_mul (by decide)]
        calc value < 2 ^ (7 * (left + 1) + 1) := small
          _ = 2 ^ (7 * left + 1) * 128 := by
            rw [show 7 * (left + 1) + 1 = 7 * left + 1 + 7 by omega, Nat.pow_add]
      rw [if_neg last, cons_append, decodeVarintFrom, if_neg (by omega), ih high]
      simp only [Option.some.injEq, Prod.mk.injEq, and_true]
      omega

theorem decodeVarint_encodeVarint {value : Nat} (small : value < 2 ^ 64) :
    decodeVarint (encodeVarint value ++ rest) = some (value, rest) :=
  decodeVarintFrom_encodeVarintFrom rest small

theorem decodeKey_encodeKey {tag : Nat}
    (positive : 0 < tag) (small : tag < 2 ^ 29) :
    decodeKey (encodeKey tag wireType ++ rest) = some (tag, wireType, rest) := by
  have bound := wireType.number_lt
  have low : (tag * 8 + wireType.number) % 8 = wireType.number := by omega
  have high : (tag * 8 + wireType.number) / 8 = tag := by omega
  simp only [decodeKey, encodeKey, bind, Option.bind, pure]
  rw [decodeVarint_encodeVarint rest (by omega)]
  simp only [low, high, wireType.tryFrom_number]
  rw [if_neg (by omega), if_neg (by omega)]

theorem encodeKey_cons (tag : Nat) (wireType : WireType) :
    ∃ byte bytes, encodeKey tag wireType = byte :: bytes := by
  rw [encodeKey, encodeVarint, encodeVarintFrom]
  by_cases last : tag * 8 + wireType.number < 128
  · rw [if_pos last]
    exact ⟨_, _, rfl⟩
  · rw [if_neg last]
    exact ⟨_, _, rfl⟩

theorem readFields_key {fuel tag : Nat} {wireType : WireType} {value : Value}
    {content rest : List UInt8} (positive : 0 < tag) (small : tag < 2 ^ 29)
    (read : readValue recursionLimit tag wireType content = some (value, rest)) :
    readFields (fuel + 1) (encodeKey tag wireType ++ content) =
      (readFields fuel rest).map ({ tag, value } :: ·) := by
  have key := decodeKey_encodeKey wireType content positive small
  obtain ⟨byte, bytes, starts⟩ := encodeKey_cons tag wireType
  rw [starts, cons_append] at key ⊢
  simp only [readFields, key, read]

theorem readFields_encode {field : Field} (writable : field.Writable) (fuel : Nat)
    (rest : List UInt8) :
    readFields (fuel + 1) (field.encode ++ rest) = (readFields fuel rest).map (field :: ·) := by
  obtain ⟨tag, value⟩ := field
  obtain ⟨positive, small, bound⟩ := writable
  cases value with
  | number value =>
    simp only [Field.encode, append_assoc]
    refine readFields_key positive small ?_
    simp only [recursionLimit, readValue, decodeVarint_encodeVarint rest bound, Option.map_some]
  | bytes content =>
    have long : ¬(content ++ rest).length < content.length := by simp
    simp only [Field.encode, append_assoc]
    refine readFields_key positive small ?_
    simp only [recursionLimit, readValue,
      decodeVarint_encodeVarint (content ++ rest) bound, takeBytes, if_neg long,
      take_left, drop_left, Option.map_some]
  | fixed | group => exact bound.elim

theorem Field.encode_length {field : Field} (writable : field.Writable) :
    0 < field.encode.length := by
  obtain ⟨tag, value⟩ := field
  have filled : ∀ wireType, 0 < (encodeKey tag wireType).length := by
    intro wireType
    obtain ⟨byte, bytes, starts⟩ := encodeKey_cons tag wireType
    simp [starts]
  cases value with
  | number =>
    have := filled .varint
    simp only [Field.encode, length_append]
    omega
  | bytes =>
    have := filled .lengthDelimited
    simp only [Field.encode, length_append]
    omega
  | fixed | group => exact writable.value.elim

/-- A message is read back as the fields it was written from. -/
theorem parse_encode {fields : List Field} (writable : ∀ field ∈ fields, field.Writable) :
    parse (encode fields) = some fields := by
  have read : ∀ fuel, (encode fields).length ≤ fuel →
      readFields fuel (encode fields) = some fields := by
    induction fields with
    | nil =>
      intro fuel _
      cases fuel <;> rfl
    | cons field _ ih =>
      intro fuel enough
      have filled := Field.encode_length (writable field mem_cons_self)
      simp only [encode, flatMap_cons, length_append] at enough ⊢
      obtain ⟨fuel, rfl⟩ : ∃ smaller, fuel = smaller + 1 := ⟨fuel - 1, by omega⟩
      rw [readFields_encode (writable field mem_cons_self)]
      have remaining := ih (fun field listed => writable field (mem_cons_of_mem _ listed))
        fuel (by simp only [encode]; omega)
      simp only [encode] at remaining
      rw [remaining, Option.map_some]
  exact read _ le_rfl

end Elura.Protobuf
