import Fleta.Database

/-!
# Keys of index tables

A list of addresses without duplicates is kept under keys: a number under every address,
an address under every number, and the count.
-/

namespace Fleta

open ByteOrder

def uint32Bytes (value : UInt32) : Bytes := littleEndian 4 value.toNat

def uint32Of (bs : Bytes) : UInt32 := UInt32.ofNat (fromLittleEndian (bs.take 4))

variable (value : UInt32)

@[simp] theorem uint32Of_uint32Bytes : uint32Of (uint32Bytes value) = value := by
  have fits : value.toNat < 256 ^ 4 := value.toNat_lt
  have whole : (littleEndian 4 value.toNat).take 4 = littleEndian 4 value.toNat :=
    List.take_of_length_le (by simp)
  rw [uint32Of, uint32Bytes, whole, from_little_endian_of_fits fits, UInt32.ofNat_toNat]

@[simp] theorem length_uint32Bytes : (uint32Bytes value).length = 4 :=
  length_littleEndian 4 _

structure IndexKeys where
  numberKey : Address → Bytes
  reverseKey : UInt32 → Bytes
  countKey : Bytes

/-- The count of a table with the content. -/
def IndexKeys.count (keys : IndexKeys) (content : Bytes → Bytes) : UInt32 :=
  if (content keys.countKey).length > 0 then uint32Of (content keys.countKey) else 0

end Fleta
