import Fleta.Program
import Fleta.Database

/-!
# The hash of a context

The context hash covers the chain position and every map of the top layer except the
used time slots: the values set in it, the copies kept by reads, the deletion marks and
the events. It is computed once and remembered until an operation that invalidates it.
-/

namespace Fleta

open ByteOrder

class HashFunction where
  hash : Bytes → Hash256

class Msgpack where
  encodeArrayLen : Nat → Bytes
  encodeBytes : Bytes → Bytes
  encodeString : Bytes → Bytes
  encodeUint8 : UInt8 → Bytes
  encodeUint16 : UInt16 → Bytes
  encodeUint64 : UInt64 → Bytes
  encodeUTXO : UTXO → Bytes

class EventCodec (Ev : Type) where
  marshal : Ev → Bytes

variable {Acc Ev : Type}

variable [HashFunction]

def doubleHash (data : Bytes) : Hash256 := HashFunction.hash (HashFunction.hash data)

/-- `hash.Hashes` copies every hash to the start of its buffer, so that only the last
one and the separators are left. -/
def hashes (list : List Hash256) : Hash256 :=
  HashFunction.hash (list.getLastD [] ++
    (List.replicate (list.length - 1) (104 :: List.replicate 32 0)).flatten)

def hexString (hash : Hash256) : Bytes :=
  hash.flatMap fun byte => [digit (byte / 16), digit (byte % 16)]
where
  digit (value : UInt8) : UInt8 := if value < 10 then 48 + value else 87 + value

def label (text : String) : Bytes := text.toList.map fun char => UInt8.ofNat char.toNat

variable [Msgpack]

def encodeMap {Key Value : Type} [Ord Key] [Std.TransOrd Key] (encodeKey : Key → Bytes)
    (encodeValue : Value → Bytes) (map : SortedMap Key Value) : Bytes :=
  Msgpack.encodeArrayLen map.len ++
    map.eachAll.flatMap fun entry => encodeKey entry.1 ++ encodeValue entry.2

def mapHash {Key Value : Type} [Ord Key] [Std.TransOrd Key] (encodeKey : Key → Bytes)
    (encodeValue : Value → Bytes) (map : SortedMap Key Value) : Bytes :=
  hexString (HashFunction.hash (encodeMap encodeKey encodeValue map))

def encodeTypedAccount [AccountCodec Acc] (acc : Acc) : Bytes :=
  Msgpack.encodeUint16 (AccountCodec.typeOf acc) ++ AccountCodec.marshal acc

variable [AccountCodec Acc] [TxOutCodec] [EventCodec Ev]

def ContextData.hash (env : Env) (ctd : ContextData Acc Ev) : Hash256 :=
  doubleHash <|
    label "ChainID" ++ [env.chainID] ++
    label "ChainName" ++ env.name ++
    label "ChainVersion" ++ littleEndian 2 env.version.toNat ++
    label "Height" ++ littleEndian 4 env.targetHeight.toNat ++
    label "PrevHash" ++ env.lastHash ++
    label "AccountMap" ++
      mapHash (fun addr => Msgpack.encodeBytes addr.bytes) encodeTypedAccount ctd.accountMap ++
    label "DeletedAccountMap" ++ (ctd.deletedAccountMap.eachAll.flatMap fun entry => entry.1.bytes) ++
    label "AccountNameMap" ++
      mapHash Msgpack.encodeString (fun addr => Msgpack.encodeBytes addr.bytes) ctd.accountNameMap ++
    label "AccountDataMap" ++
      mapHash Msgpack.encodeString Msgpack.encodeBytes ctd.accountDataMap ++
    label "DeletedAccountDataMap" ++ (ctd.deletedAccountDataMap.eachAll.flatMap fun entry => entry.1) ++
    label "UTXOMap" ++ mapHash Msgpack.encodeUint64 Msgpack.encodeUTXO ctd.utxoMap ++
    label "CreatedUTXOMap" ++ mapHash Msgpack.encodeUint64 TxOutCodec.marshal ctd.createdUTXOMap ++
    label "DeletedUTXOMap" ++
      (ctd.deletedUTXOMap.eachAll.flatMap fun entry => littleEndian 8 entry.1.toNat) ++
    label "Events" ++
      (ctd.events.flatMap fun event => HashFunction.hash (EventCodec.marshal event)) ++
    label "ProcessDataMap" ++
      mapHash Msgpack.encodeString Msgpack.encodeBytes ctd.processDataMap ++
    label "DeletedProcessDataMap" ++ (ctd.deletedProcessDataMap.eachAll.flatMap fun entry => entry.1)

def Context.hash (ctx : Context Acc Ev) : Hash256 × Context Acc Ev :=
  if ctx.isLatestHash then (ctx.dataHash, ctx)
  else
    let dataHash := hashes [ctx.genLastHash, ctx.top.hash ctx.env]
    (dataHash, { ctx with dataHash := dataHash, isLatestHash := true })

variable (ctx : Context Acc Ev)

@[simp] theorem Context.hash_top : ctx.hash.2.top = ctx.top := by
  unfold Context.hash
  split <;> rfl

@[simp] theorem Context.hash_loader : ctx.hash.2.loader = ctx.loader := by
  unfold Context.hash
  split <;> rfl

@[simp] theorem Context.hash_parents : ctx.hash.2.parents = ctx.parents := by
  unfold Context.hash
  split <;> rfl

theorem Context.Sound.hash {ctx : Context Acc Ev} (sound : ctx.Sound) : ctx.hash.2.Sound := by
  unfold Context.hash
  split
  · exact sound
  · exact { sound with }

theorem Context.Twin.hash {left right : Context Acc Ev} (twin : left.Twin right) :
    left.hash.1 = right.hash.1 := by
  rw [twin.same]
  unfold Context.hash
  split <;> rfl

end Fleta
