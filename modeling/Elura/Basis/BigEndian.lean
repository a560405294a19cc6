import Mathlib

/-!
Fixed-width big-endian integers at the front of a byte string. `getUint` is the
cursor read of a header field; on at least `width` bytes it inverts `putUint`
from both sides.
-/

namespace Elura

open List

def putUint : Nat → Nat → List UInt8
  | 0, _ => []
  | width + 1, value => putUint width (value / 256) ++ [UInt8.ofNat value]

def uintOfBytes (bytes : List UInt8) : Nat :=
  bytes.foldl (fun value byte => value * 256 + byte.toNat) 0

def getUint (width : Nat) (cursor : List UInt8) : Nat × List UInt8 :=
  (uintOfBytes (cursor.take width), cursor.drop width)

@[simp] theorem length_putUint (width value : Nat) : (putUint width value).length = width := by
  induction width generalizing value with
  | zero => rfl
  | succ _ ih => simp [putUint, ih]

theorem uintOfBytes_concat (bytes : List UInt8) (byte : UInt8) :
    uintOfBytes (bytes ++ [byte]) = uintOfBytes bytes * 256 + byte.toNat := by
  simp [uintOfBytes]

theorem uintOfBytes_putUint (width value : Nat) (bound : value < 256 ^ width) :
    uintOfBytes (putUint width value) = value := by
  induction width generalizing value with
  | zero =>
    have zero : value = 0 := by simpa using bound
    subst value
    rfl
  | succ width ih =>
    have quotient : value / 256 < 256 ^ width := by
      rw [Nat.div_lt_iff_lt_mul (by decide)]
      exact bound
    rw [putUint, uintOfBytes_concat, ih _ quotient, UInt8.toNat_ofNat']
    omega

theorem putUint_uintOfBytes (bytes : List UInt8) :
    putUint bytes.length (uintOfBytes bytes) = bytes := by
  induction bytes using reverseRecOn with
  | nil => rfl
  | append_singleton bytes byte ih =>
    have small : byte.toNat < 256 := byte.toNat_lt
    have quotient : (uintOfBytes bytes * 256 + byte.toNat) / 256 = uintOfBytes bytes := by omega
    have last : UInt8.ofNat (uintOfBytes bytes * 256 + byte.toNat) = byte := by
      apply UInt8.toNat_inj.mp
      rw [UInt8.toNat_ofNat']
      omega
    rw [uintOfBytes_concat, length_append, length_singleton, putUint, quotient, ih, last]

theorem uintOfBytes_lt (bytes : List UInt8) : uintOfBytes bytes < 256 ^ bytes.length := by
  induction bytes using reverseRecOn with
  | nil => simp [uintOfBytes]
  | append_singleton _ byte =>
    have small : byte.toNat < 256 := byte.toNat_lt
    rw [uintOfBytes_concat, length_append, length_singleton]
    omega

theorem getUint_putUint (width value : Nat) (rest : List UInt8) (bound : value < 256 ^ width) :
    getUint width (putUint width value ++ rest) = (value, rest) := by
  have front : (putUint width value ++ rest).take width = putUint width value := by
    rw [take_append_of_le_length (by simp), take_of_length_le (by simp)]
  have back : (putUint width value ++ rest).drop width = rest := by
    rw [drop_append_of_le_length (by simp), drop_eq_nil_of_le (by simp), nil_append]
  rw [getUint, front, back, uintOfBytes_putUint width value bound]

theorem getUint_eq {width value : Nat} {cursor rest : List UInt8}
    (read : getUint width cursor = (value, rest)) (available : width ≤ cursor.length) :
    cursor = putUint width value ++ rest ∧ value < 256 ^ width ∧
      rest.length = cursor.length - width := by
  obtain ⟨rfl, rfl⟩ := Prod.mk.inj read
  have exact : (cursor.take width).length = width := by simp [available]
  have field := putUint_uintOfBytes (cursor.take width)
  have bound := uintOfBytes_lt (cursor.take width)
  rw [exact] at field bound
  exact ⟨by rw [field, take_append_drop], bound, length_drop⟩

end Elura
