import Fleta.SelfDelimiting
import Fleta.VaultTransactions

/-!
# The encoding of transfers

A transfer is written with the first six bytes of its addresses only, the height and the
index of the account; the reader fills the magic number with zeros. The magic number of a
chain is computed from its symbol, its usage and a hash.
-/

namespace Fleta

open ByteOrder Amount Address

structure Transfer where
  timestamp : UInt64
  sender : Address
  recipient : Address
  amount : Int
deriving DecidableEq

namespace Transfer

-- The msgpack encodings of 64-bit numbers and of byte strings.
variable (u64 : SelfDelimiting UInt64) (bin : SelfDelimiting Bytes)

def encode (tx : Transfer) : Bytes :=
  u64.write tx.timestamp ++ (bin.write (tx.sender.bytes.take 6) ++
    (bin.write (tx.recipient.bytes.take 6) ++ bin.write (toBytes tx.amount)))

/-- The reader gives back what follows the transfer. -/
def decode (bytes : Bytes) : Option (Transfer × Bytes) := do
  let (ts, bytes) ← u64.read bytes
  let (sender, bytes) ← bin.read bytes
  let (recipient, bytes) ← bin.read bytes
  let (am, bytes) ← bin.read bytes
  return (⟨ts, Database.addressOf sender, Database.addressOf recipient, ofBytes am⟩, bytes)

end Transfer

def isCapitalAndNumber (name : Bytes) : Bool :=
  name.all fun c => !((c < 48 || 57 < c) && (c < 65 || 90 < c))

def isAlphabetAndNumber (name : Bytes) : Bool :=
  name.all fun c => !((c < 48 || 57 < c) && (c < 97 || 122 < c) && (c < 65 || 90 < c))

namespace Store

def foldBase : Bytes → UInt8 × UInt8 → UInt8 × UInt8
  | [], base => base
  | [byte], base => (base.1 ^^^ byte, base.2)
  | byte :: next :: rest, base => foldBase rest (base.1 ^^^ byte, base.2 ^^^ next)

def magicBase [HashFunction] (symbol usage : Bytes) : UInt8 × UInt8 :=
  foldBase (HashFunction.hash
      (symbol ++ ascii "@" ++ usage ++ ascii "@" ++ ascii "PoweredByFLETABlockchain"))
    (243, 133)

/-- `setupMagicNumber`, which panics on a symbol or a usage that is not allowed. -/
def magicNumber [HashFunction] (symbol usage : Bytes) : Option UInt64 :=
  if symbol.length < 3 ∨ symbol.length > 5 ∨ !isCapitalAndNumber symbol then none
  else if usage.length < 4 ∨ usage.length > 16 ∨ !isAlphabetAndNumber usage then none
  else
    let (first, second) := magicBase symbol usage
    some (UInt64.ofNat (fromBigEndian ([first, second] ++ maskSymbol symbol first second)))

end Store

theorem Address.new_inj {height height' : UInt32} {index index' : UInt16} {magic magic' : UInt64}
    (same : new height index magic = new height' index' magic') : magic = magic' := by
  have bytes := congrArg (fun addr => addr.bytes.drop 6) same
  have drops : ∀ (height : UInt32) (index : UInt16) (magic : UInt64),
      (new height index magic).bytes.drop 6 = bigEndian 8 magic.toNat := by
    intro height index magic
    rw [new, List.drop_left' (by simp)]
  simp only [drops] at bytes
  exact UInt64.toNat_inj.mp (big_endian_injective magic.toNat_lt magic'.toNat_lt bytes)

theorem Address.new_take (height : UInt32) (index : UInt16) (magic : UInt64) :
    Database.addressOf ((new height index magic).bytes.take 6) = new height index 0 := by
  apply eq_of_bytes_eq
  have front : (new height index magic).bytes.take 6 =
      bigEndian 4 height.toNat ++ bigEndian 2 index.toNat := by
    rw [new, List.take_left' (by simp)]
  rw [front]
  change copyInto addressSize _ = _
  unfold copyInto
  rw [List.take_of_length_le (by simp [addressSize])]
  simp only [List.length_append, length_bigEndian]
  rfl

theorem Transfer.decode_encode (u64 : SelfDelimiting UInt64) (bin : SelfDelimiting Bytes)
    (tx : Transfer) :
    decode u64 bin (encode u64 bin tx) =
      some (⟨tx.timestamp, Database.addressOf (tx.sender.bytes.take 6),
        Database.addressOf (tx.recipient.bytes.take 6), tx.amount.natAbs⟩, []) := by
  have last := bin.read_write (toBytes tx.amount) []
  rw [List.append_nil] at last
  simp [decode, encode, u64.read_write, bin.read_write, last, ofBytes_toBytes]

/-- A transfer comes back from its encoding exactly when both magic numbers are zero and the
amount is not negative. -/
theorem Transfer.roundTrip_iff (u64 : SelfDelimiting UInt64) (bin : SelfDelimiting Bytes)
    (timestamp : UInt64) (height height' : UInt32) (index index' : UInt16)
    (magic magic' : UInt64) (amount : Int) :
    decode u64 bin (encode u64 bin
        ⟨timestamp, .new height index magic, .new height' index' magic', amount⟩) =
      some (⟨timestamp, .new height index magic, .new height' index' magic', amount⟩, []) ↔
    magic = 0 ∧ magic' = 0 ∧ 0 ≤ amount := by
  rw [decode_encode, new_take, new_take]
  constructor
  · intro same
    simp only [Option.some.injEq, Prod.mk.injEq, Transfer.mk.injEq, true_and, and_true] at same
    refine ⟨(new_inj same.1).symm, (new_inj same.2.1).symm, ?_⟩
    omega
  · rintro ⟨rfl, rfl, nonneg⟩
    rw [Int.natAbs_of_nonneg nonneg]

/-- A transfer from an account of the genesis with the magic number 1 comes back as one from
the account with the magic number 0. -/
theorem Transfer.genesis_sender_changed :
    decode .uint64 .bytes
        (encode .uint64 .bytes ⟨0, .new 0 21000 1, .new 0 21001 0, coin⟩) =
      some (⟨0, .new 0 21000 0, .new 0 21001 0, coin⟩, []) ∧
    decode .uint64 .bytes
        (encode .uint64 .bytes ⟨0, .new 0 21000 1, .new 0 21001 0, coin⟩) ≠
      some (⟨0, .new 0 21000 1, .new 0 21001 0, coin⟩, []) := by
  have changed : decode .uint64 .bytes (encode .uint64 .bytes
      ⟨0, .new 0 21000 1, .new 0 21001 0, coin⟩) =
        some (⟨0, .new 0 21000 0, .new 0 21001 0, coin⟩, []) := by
    rw [decode_encode, new_take, new_take]
    rfl
  refine ⟨changed, fun same => ?_⟩
  rw [changed] at same
  exact absurd same (by decide)

end Fleta
