import Mathlib.Data.List.Basic

/-!
Texts on the wire: ASCII texts are their own UTF-8 bytes, and a decimal number is read back
from its digits.
-/

namespace Elura

def asciiBytes (letters : List Char) : List UInt8 :=
  letters.map (fun letter => UInt8.ofNat letter.toNat)

theorem utf8_ascii {letters : List Char} (ascii : ∀ letter ∈ letters, letter.toNat ≤ 127) :
    (String.ofList letters).toUTF8.data.toList = asciiBytes letters := by
  change (String.ofList letters).toByteArray.data.toList = _
  rw [String.toByteArray_ofList]
  induction letters with
  | nil => rfl
  | cons letter _ ih =>
    rw [List.utf8Encode_cons, ByteArray.data_append, Array.toList_append, ih (fun other listed =>
      ascii other (List.mem_cons_of_mem _ listed)), asciiBytes, asciiBytes,
        List.utf8Encode_singleton]
    simp [String.utf8EncodeChar, ascii letter List.mem_cons_self]

theorem fromUTF8_ascii {letters : List Char} (ascii : ∀ letter ∈ letters, letter.toNat ≤ 127) :
    String.fromUTF8? ⟨(asciiBytes letters).toArray⟩ = some (String.ofList letters) := by
  rw [← utf8_ascii ascii]
  exact dif_pos (String.ofList letters).isValidUTF8

/-- What `parse` returns for an unsigned type: decimal digits after at most one plus sign. -/
def parseUnsigned (limit : Nat) (text : List Char) : Option Nat :=
  let digits := match text with
    | '+' :: rest => rest
    | all => all
  if digits ≠ [] ∧ digits.all Char.isDigit then
    let value := Nat.ofDigitChars 10 digits 0
    if value ≤ limit then some value else none
  else none

theorem isDigit_toDigits (value : Nat) : ∀ digit ∈ Nat.toDigits 10 value, digit.isDigit = true :=
  fun _ listed => Nat.isDigit_of_mem_toDigits (by decide) (by decide) listed

theorem parseUnsigned_toDigits {limit value : Nat} (bounded : value ≤ limit) :
    parseUnsigned limit (Nat.toDigits 10 value) = some value := by
  have decimal := isDigit_toDigits value
  have unsigned : (match Nat.toDigits 10 value with
      | '+' :: rest => rest
      | all => all) = Nat.toDigits 10 value := by
    split
    · rename_i rest signed
      have plus := decimal '+' (by rw [signed]; exact List.mem_cons_self)
      exact absurd plus (by decide)
    · rfl
  simp only [parseUnsigned, unsigned, Nat.ofDigitChars_ten_toDigits]
  rw [if_pos ⟨Nat.toDigits_ne_nil, List.all_eq_true.mpr decimal⟩, if_pos bounded]

end Elura
