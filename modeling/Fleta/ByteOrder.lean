import Mathlib.Algebra.GroupWithZero.Nat

/-!
# Fixed-width byte orders

A natural number is written in `width` bytes, least significant byte first or
last. Writing truncates modulo `256 ^ width`; reading the bytes back gives the
truncated number, so two numbers that fit are written differently.
-/

namespace Fleta

abbrev Bytes := List UInt8

namespace ByteOrder

def littleEndian : Nat → Nat → Bytes
  | 0, _ => []
  | width + 1, value => UInt8.ofNat value :: littleEndian width (value / 256)

def fromLittleEndian : Bytes → Nat
  | [] => 0
  | byte :: rest => byte.toNat + 256 * fromLittleEndian rest

def bigEndian (width value : Nat) : Bytes := (littleEndian width value).reverse

def fromBigEndian (bytes : Bytes) : Nat := fromLittleEndian bytes.reverse

@[simp] theorem length_littleEndian (width value : Nat) :
    (littleEndian width value).length = width := by
  induction width generalizing value with
  | zero => rfl
  | succ width ih => simp [littleEndian, ih]

@[simp] theorem length_bigEndian (width value : Nat) : (bigEndian width value).length = width := by
  simp [bigEndian]

theorem from_little_endian_little_endian (width value : Nat) :
    fromLittleEndian (littleEndian width value) = value % 256 ^ width := by
  induction width generalizing value with
  | zero => simp [littleEndian, fromLittleEndian, Nat.mod_one]
  | succ width ih =>
    have head : (UInt8.ofNat value).toNat = value % 256 := by simp
    rw [littleEndian, fromLittleEndian, ih, head, Nat.pow_succ, Nat.mul_comm (256 ^ width),
      Nat.mod_mul]

theorem from_little_endian_of_fits {width value : Nat} (fits : value < 256 ^ width) :
    fromLittleEndian (littleEndian width value) = value := by
  rw [from_little_endian_little_endian, Nat.mod_eq_of_lt fits]

theorem from_big_endian_of_fits {width value : Nat} (fits : value < 256 ^ width) :
    fromBigEndian (bigEndian width value) = value := by
  rw [fromBigEndian, bigEndian, List.reverse_reverse, from_little_endian_of_fits fits]

variable (bytes : Bytes)

theorem from_little_endian_lt : fromLittleEndian bytes < 256 ^ bytes.length := by
  induction bytes with
  | nil => simp [fromLittleEndian]
  | cons byte rest ih =>
    rw [fromLittleEndian, List.length_cons, Nat.pow_succ]
    have small := byte.toNat_lt
    omega

theorem little_endian_from_little_endian :
    littleEndian bytes.length (fromLittleEndian bytes) = bytes := by
  induction bytes with
  | nil => rfl
  | cons byte rest ih =>
    have small := byte.toNat_lt
    have high : (byte.toNat + 256 * fromLittleEndian rest) / 256 = fromLittleEndian rest := by
      omega
    have low : UInt8.ofNat (byte.toNat + 256 * fromLittleEndian rest) = byte := by
      have value : (UInt8.ofNat (byte.toNat + 256 * fromLittleEndian rest)).toNat = _ :=
        UInt8.toNat_ofNat'
      rw [← UInt8.toNat_inj, value]
      omega
    rw [List.length_cons, fromLittleEndian, littleEndian, high, low, ih]

theorem big_endian_from_big_endian : bigEndian bytes.length (fromBigEndian bytes) = bytes := by
  rw [bigEndian, fromBigEndian, ← List.length_reverse, little_endian_from_little_endian,
    List.reverse_reverse]

variable {width left right : Nat}

theorem little_endian_injective (leftFits : left < 256 ^ width) (rightFits : right < 256 ^ width)
    (same : littleEndian width left = littleEndian width right) : left = right := by
  rw [← from_little_endian_of_fits leftFits, same, from_little_endian_of_fits rightFits]

theorem big_endian_injective (leftFits : left < 256 ^ width) (rightFits : right < 256 ^ width)
    (same : bigEndian width left = bigEndian width right) : left = right :=
  little_endian_injective leftFits rightFits (List.reverse_inj.mp same)

end ByteOrder

end Fleta
