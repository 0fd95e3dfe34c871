import Fleta.ByteOrder

/-!
# Amounts and their encoding

An amount is a `big.Int`. It is stored as the shortest big-endian text of its absolute
value: zero is the empty text, which the state takes for an absent value, and the sign is
not stored.
-/

namespace Fleta

open ByteOrder

namespace Amount

def coin : Int := 1000000000000000000

/-- The number of bytes of `big.Int.Bytes`. -/
def byteWidth (value : Nat) : Nat := if value = 0 then 0 else value.log2 / 8 + 1

def toBytes (am : Int) : Bytes := bigEndian (byteWidth am.natAbs) am.natAbs

/-- `NewAmountFromBytes`. -/
def ofBytes (bytes : Bytes) : Int := fromBigEndian bytes

theorem fits_byteWidth (value : Nat) : value < 256 ^ byteWidth value := by
  unfold byteWidth
  split
  · rename_i zero
    rw [zero]
    exact Nat.one_pos
  · have top : value < 2 ^ (value.log2 + 1) := Nat.lt_log2_self
    have wide : value.log2 + 1 ≤ 8 * (value.log2 / 8 + 1) := by omega
    calc value < 2 ^ (value.log2 + 1) := top
      _ ≤ 2 ^ (8 * (value.log2 / 8 + 1)) := Nat.pow_le_pow_right (by decide) wide
      _ = 256 ^ (value.log2 / 8 + 1) := by rw [Nat.pow_mul]

/-- The sign is lost on the way through the encoding. -/
theorem ofBytes_toBytes (am : Int) : ofBytes (toBytes am) = am.natAbs := by
  rw [ofBytes, toBytes, from_big_endian_of_fits (fits_byteWidth _)]

variable {am : Int}

theorem ofBytes_toBytes_of_nonneg (nonneg : 0 ≤ am) : ofBytes (toBytes am) = am := by
  rw [ofBytes_toBytes, Int.natAbs_of_nonneg nonneg]

variable (bytes : Bytes)

theorem ofBytes_nonneg : 0 ≤ ofBytes bytes := Int.natCast_nonneg _

@[simp] theorem ofBytes_nil : ofBytes [] = 0 := rfl

@[simp] theorem toBytes_zero : toBytes 0 = [] := rfl

theorem eq_zero_of_toBytes_isEmpty (empty : (toBytes am).isEmpty = true) : am = 0 := by
  have decoded := ofBytes_toBytes am
  rw [List.isEmpty_iff.mp empty, ofBytes_nil] at decoded
  omega

theorem toBytes_isEmpty : (toBytes am).isEmpty = true ↔ am = 0 := by
  constructor
  · exact eq_zero_of_toBytes_isEmpty
  · intro zero
    rw [zero, toBytes_zero]
    rfl

/-- The amount that is read from a stored value: an absent value is zero. -/
def ofStored (bytes : Bytes) : Int := if bytes.length > 0 then ofBytes bytes else 0

@[simp] theorem ofStored_eq : ofStored bytes = ofBytes bytes := by
  unfold ofStored
  split
  · rfl
  · rename_i short
    rw [List.length_eq_zero_iff.mp (Nat.eq_zero_of_not_pos short)]
    rfl

end Amount

end Fleta
