import Fleta.BlockCreator

/-!
# The store of a chain

A store keeps the state in a key-value database, the connected blocks in an append-only
file, and in memory the last block and the used time slots. A restart loses what is in
memory. `IterBlockAfterContext` then connects the blocks the database has missed and
fills the time slots again from the last blocks.
-/

namespace Fleta

variable {Acc Ev Tx : Type}

structure Tip (Tx : Type) where
  height : UInt32
  heightHash : Hash256
  heightBlock : Option (Block Tx)

/-- `db` and `dbHeight` are the content of the key-value database, `blocks` the content
of the pile. -/
structure Store (Tx : Type) where
  chainID : UInt8
  name : Bytes
  version : UInt16
  db : Database
  dbHeight : UInt32
  genesisHash : Hash256
  blocks : List (Block Tx)
  cache : Option (Tip Tx)
  timeSlotMap : TimeSlotMap

namespace TimeSlotMap

def addAll (src dst : TimeSlotMap) : TimeSlotMap :=
  src.eachAll.foldl (fun map entry =>
      map.put entry.1 (SortedMap.putAll entry.2 ((map.get entry.1).getD .empty))) dst

/-- The slots that are deleted once a block of the given slot is stored. -/
def prune (currentSlot : UInt32) (map : TimeSlotMap) : TimeSlotMap :=
  ((map.eachAll.map Prod.fst).filter (· < currentSlot - 1)).foldl (·.delete ·) map

end TimeSlotMap

/-- The checks of the block encoder. -/
def Block.encodable (b : Block Tx) : Bool :=
  b.transactionTypes.length < 65535 && b.transactionTypes.length == b.transactions.length &&
    b.transactionTypes.length == b.transactionSignatures.length

namespace Store

def height (st : Store Tx) : UInt32 :=
  match st.cache with
  | some tip => tip.height
  | none => st.dbHeight

def targetHeight (st : Store Tx) : UInt32 := st.height + 1

def cachedAt (height : UInt32) (st : Store Tx) : Option (Tip Tx) :=
  st.cache.filter fun tip => tip.height == height

def piled (height : UInt32) (st : Store Tx) : Except Err (Block Tx) :=
  if height < 1 then .error .notExistKey
  else match st.blocks[height.toNat - 1]? with
    | some b => .ok b
    | none => .error .notExistKey

def block (height : UInt32) (st : Store Tx) : Except Err (Block Tx) :=
  if height < 1 then .error .notExistKey
  else match (st.cachedAt height).bind Tip.heightBlock with
    | some b => .ok b
    | none => st.piled height

def header (height : UInt32) (st : Store Tx) : Except Err Header :=
  (st.block height).map Block.header

def lastTimestamp (st : Store Tx) : UInt64 :=
  if st.height = 0 then 0
  else match st.header st.height with
    | .ok bh => bh.timestamp
    | .error _ => 0

section Hash

variable [HashFunction] [HeaderCodec]

def hash (height : UInt32) (st : Store Tx) : Except Err Hash256 :=
  match st.cachedAt height with
  | some tip => .ok tip.heightHash
  | none =>
    if height = 0 then .ok st.genesisHash
    else (st.piled height).map fun b => b.header.hash

/-- The source panics where this is the empty hash. -/
def lastHash (st : Store Tx) : Hash256 :=
  match st.hash st.height with
  | .ok h => h
  | .error _ => []

def status (st : Store Tx) : Database.Status where
  chainID := st.chainID
  name := st.name
  version := st.version
  targetHeight := st.targetHeight
  lastHash := st.lastHash
  lastTimestamp := st.lastTimestamp
  timeSlotMap := st.timeSlotMap

variable [Account Acc] [AccountCodec Acc] [TxOutCodec]

def loader [Base58] (st : Store Tx) : Loader Acc := st.db.toLoader st.status

def storeGenesis (genHash : Hash256) (ctd : ContextData Acc Ev) (st : Store Tx) :
    Except Err (Store Tx) :=
  if st.height > 0 then .error .alreadyGenesised
  else
    match st.db.applyContextData ctd with
    | .error err => .error err
    | .ok db =>
      .ok { st with
        db := db
        dbHeight := 0
        genesisHash := if st.blocks = [] then genHash else st.genesisHash
        cache := some ⟨0, genHash, none⟩ }

/-- A block that is not the next one of the pile is not appended, without an error. -/
def appendData (b : Block Tx) (blocks : List (Block Tx)) : List (Block Tx) :=
  if b.header.height = UInt32.ofNat (blocks.length + 1) then blocks ++ [b] else blocks

/-- The pile is written before the database: a block whose context cannot be applied
stays in the pile. -/
def storeBlock (b : Block Tx) (ctd : ContextData Acc Ev) (st : Store Tx) :
    Except Err Unit × Store Tx :=
  if !b.encodable then (.error .invalidTransactionCount, st)
  else
    let st := { st with blocks := appendData b st.blocks }
    match st.db.applyContextData ctd with
    | .error err => (.error err, st)
    | .ok db =>
      (.ok (), { st with
          db := db
          dbHeight := b.header.height
          cache := some ⟨b.header.height, b.header.hash, some b⟩
          timeSlotMap := (TimeSlotMap.addAll ctd.timeSlotMap st.timeSlotMap).prune
              (toTimeSlot b.header.timestamp) })

end Hash

variable [HashFunction] [Msgpack] [Transaction Acc Ev Tx]

def rememberBlock (chainID : UInt8) (b : Block Tx) (map : TimeSlotMap) : TimeSlotMap :=
  (b.transactionTypes.zip b.transactions).foldl (fun map entry =>
      let slot := toTimeSlot (Transaction.timestamp entry.2)
      if slot ≥ toTimeSlot b.header.timestamp - 1 then
        map.putKey slot (hashTransactionByType chainID entry.1 entry.2)
      else map) map

/-- The backward loop of the rebuild, from the given height down to one. -/
def rebuild (st : Store Tx) (lastSlot : UInt32) : Nat → TimeSlotMap → Except Err TimeSlotMap
  | 0, map => .ok map
  | h + 1, map =>
    match st.block (UInt32.ofNat (h + 1)) with
    | .error err => .error err
    | .ok b =>
      if toTimeSlot b.header.timestamp < lastSlot - 1 then .ok map
      else rebuild st lastSlot h (rememberBlock st.chainID b map)

def replay (fn : Block Tx → Store Tx → Except Err Unit × Store Tx) :
    List (Block Tx) → Store Tx → Except Err Unit × Store Tx
  | [], st => (.ok (), st)
  | b :: rest, st =>
    match fn b st with
    | (.error err, st) => (.error err, st)
    | (.ok _, st) => replay fn rest st

/-- Every block of the pile above the height of the database is handed to `fn`; the
pile does not grow meanwhile. -/
def iterBlockAfterContext (fn : Block Tx → Store Tx → Except Err Unit × Store Tx) (st : Store Tx) :
    Except Err Unit × Store Tx :=
  match replay fn (st.blocks.drop st.height.toNat) st with
  | (.error err, st) => (.error err, st)
  | (.ok _, st) =>
    if st.height > 0 then
      match st.header st.height with
      | .error err => (.error err, st)
      | .ok bh =>
        match rebuild st (toTimeSlot bh.timestamp) st.height.toNat st.timeSlotMap with
        | .error err => (.error err, st)
        | .ok map => (.ok (), { st with timeSlotMap := map })
    else (.ok (), st)

end Store

end Fleta
