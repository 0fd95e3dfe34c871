import Fleta.Store
import Fleta.PileHistory

/-!
# The store over its pile database

`Store` keeps the connected blocks in a list. Here they are in the pile database, as the
source has them: the header, the rest of the block and the events of a block are the
items of one entry, and a block is read back from the first two. The update of the
key-value database comes after the append and may fail; an append that is refused because
the height is not the next one is tolerated.
-/

namespace Fleta

variable {Acc Ev Tx : Type}

/-- The encoding of a block starts with that of its header. -/
class BlockCodec (Tx : Type) where
  marshalBody : Block Tx → Bytes
  unmarshalBlock : Bytes → Except Err (Block Tx)
  unmarshalHeader : Bytes → Except Err Header

class EventListCodec (Ev : Type) where
  marshalEvents : List Ev → Bytes

class LawfulBlockCodec (Tx : Type) [HeaderCodec] [BlockCodec Tx] : Prop where
  unmarshalBlock_marshal : ∀ b : Block Tx, b.encodable = true →
    BlockCodec.unmarshalBlock (HeaderCodec.marshal b.header ++ BlockCodec.marshalBody b) = .ok b
  unmarshalHeader_marshal : ∀ bh : Header,
    @BlockCodec.unmarshalHeader Tx _ (HeaderCodec.marshal bh) = .ok bh

/-- `db` and `dbHeight` are the content of the key-value database. -/
structure DiskStore (Tx : Type) where
  chainID : UInt8
  name : Bytes
  version : UInt16
  db : Database
  dbHeight : UInt32
  cdb : DB
  cache : Option (Tip Tx)
  timeSlotMap : TimeSlotMap

namespace DiskStore

def height (st : DiskStore Tx) : UInt32 :=
  match st.cache with
  | some tip => tip.height
  | none => st.dbHeight

def cachedAt (height : UInt32) (st : DiskStore Tx) : Option (Tip Tx) :=
  st.cache.filter fun tip => tip.height == height

def notFound : Err → Err
  | .invalidPileHeight => .notExistKey
  | err => err

def hash (height : UInt32) (st : DiskStore Tx) : Except Err Hash256 :=
  match st.cachedAt height with
  | some tip => .ok tip.heightHash
  | none => (st.cdb.getHash height).mapError notFound

def tipBlock (tip : Tip Tx) : Except Err (Block Tx) :=
  match tip.heightBlock with
  | some b => .ok b
  | none => .error .panicked

section Read

variable [Gzip] [BlockCodec Tx]

def loggedHeader (height : UInt32) (st : DiskStore Tx) : Except Err Header := do
  let value ← (st.cdb.getData height 0).mapError notFound
  @BlockCodec.unmarshalHeader Tx _ value

def loggedBlock (height : UInt32) (st : DiskStore Tx) : Except Err (Block Tx) := do
  let value ← (st.cdb.getDatas height 0 2).mapError notFound
  BlockCodec.unmarshalBlock value

def header (height : UInt32) (st : DiskStore Tx) : Except Err Header :=
  if height < 1 then .error .notExistKey
  else
    match st.cachedAt height with
    | some tip => (tipBlock tip).map Block.header
    | none => st.loggedHeader height

def block (height : UInt32) (st : DiskStore Tx) : Except Err (Block Tx) :=
  if height < 1 then .error .notExistKey
  else
    match st.cachedAt height with
    | some tip => tipBlock tip
    | none => st.loggedBlock height

def lastTimestamp (st : DiskStore Tx) : UInt64 :=
  if st.height = 0 then 0
  else match st.header st.height with
    | .ok bh => bh.timestamp
    | .error _ => 0

end Read

def targetHeight (st : DiskStore Tx) : UInt32 := st.height + 1

/-- The source panics where this is the empty hash. -/
def lastHash (st : DiskStore Tx) : Hash256 :=
  match st.hash st.height with
  | .ok h => h
  | .error _ => []

section Load

variable [Gzip] [BlockCodec Tx]

def status (st : DiskStore Tx) : Database.Status where
  chainID := st.chainID
  name := st.name
  version := st.version
  targetHeight := st.targetHeight
  lastHash := st.lastHash
  lastTimestamp := st.lastTimestamp
  timeSlotMap := st.timeSlotMap

def loader [AccountCodec Acc] [TxOutCodec] [Base58] (st : DiskStore Tx) : Loader Acc :=
  st.db.toLoader st.status

end Load

section Write

variable [Gzip] [HashFunction] [HeaderCodec] [BlockCodec Tx] [EventListCodec Ev]
  [Account Acc] [AccountCodec Acc] [TxOutCodec]

def logDatas (b : Block Tx) (events : List Ev) : List Bytes :=
  [HeaderCodec.marshal b.header, BlockCodec.marshalBody b] ++
    if events.isEmpty then [] else [EventListCodec.marshalEvents events]

def committed (b : Block Tx) (ctd : ContextData Acc Ev) (db : Database) (st : DiskStore Tx) :
    DiskStore Tx :=
  { st with
    db := db
    dbHeight := b.header.height
    cache := some ⟨b.header.height, b.header.hash, some b⟩
    timeSlotMap :=
      (TimeSlotMap.addAll ctd.timeSlotMap st.timeSlotMap).prune (toTimeSlot b.header.timestamp) }

def update (fault : Option Err) (b : Block Tx) (ctd : ContextData Acc Ev) (st : DiskStore Tx) :
    Except Err Unit × DiskStore Tx :=
  match st.db.applyContextData ctd with
  | .error err => (.error err, st)
  | .ok db =>
    match fault with
    | some err => (.error err, st)
    | none => (.ok (), st.committed b ctd db)

/-- `fault` is the error of the backend, if its update fails. -/
def storeBlock (fault : Option Err) (b : Block Tx) (ctd : ContextData Acc Ev)
    (st : DiskStore Tx) : Except Err Unit × DiskStore Tx :=
  if !b.encodable then (.error .invalidTransactionCount, st)
  else
    match st.cdb.appendData b.header.height b.header.hash (logDatas b ctd.events) with
    | (.ok _, cdb) => update fault b ctd { st with cdb := cdb }
    | (.error err, cdb) =>
      if err ≠ .invalidAppendHeight then (.error err, { st with cdb := cdb })
      else update fault b ctd { st with cdb := cdb }

def storeGenesis (genHash : Hash256) (ctd : ContextData Acc Ev) (st : DiskStore Tx) :
    Except Err (DiskStore Tx) :=
  if st.height > 0 then .error .alreadyGenesised
  else
    match st.cdb.init genHash with
    | .error err =>
      if err ≠ .alreadyInitialized then .error err
      else genesised st.cdb
    | .ok cdb => genesised cdb
where
  genesised (cdb : DB) : Except Err (DiskStore Tx) :=
    match st.db.applyContextData ctd with
    | .error err => .error err
    | .ok db => .ok { st with
        cdb := cdb
        db := db
        dbHeight := 0
        cache := some ⟨0, genHash, none⟩ }

end Write

variable [Gzip] [HashFunction] [HeaderCodec] [BlockCodec Tx]

/-- The entry of the log is that of the block, with or without events. -/
structure Records (b : Block Tx) (e : Entry) : Prop where
  dataHash : e.dataHash = b.header.hash
  datas : ∃ events : List Bytes, events.length ≤ 1 ∧
    e.datas = [HeaderCodec.marshal b.header, BlockCodec.marshalBody b] ++ events

omit [Gzip] in
theorem records_logDatas [EventListCodec Ev] (b : Block Tx) (events : List Ev) :
    Records b ⟨b.header.hash, logDatas b events⟩ := by
  refine ⟨rfl, _, ?_, rfl⟩
  split
  · exact Nat.zero_le _
  · exact Nat.le_refl _

/-- The log holds the given blocks, and they can be read back. -/
def Logged (gen : Hash256) (blocks : List (Block Tx)) (cdb : DB) : Prop :=
  (∀ b ∈ blocks, b.encodable = true) ∧
    ∃ es, cdb.Represents gen es ∧ DB.Readable es ∧ List.Forall₂ Records blocks es

/-- The log and the database hold the given blocks. -/
structure Filed (gen : Hash256) (blocks : List (Block Tx)) (st : DiskStore Tx) : Prop where
  log : Logged gen blocks st.cdb
  dbHeight : st.dbHeight = UInt32.ofNat blocks.length
  cached : ∀ tip, st.cache = some tip → tip.height = UInt32.ofNat blocks.length ∧
    tip.heightBlock = blocks.getLast?

variable {gen : Hash256} {blocks : List (Block Tx)} {st : DiskStore Tx}

theorem Filed.height (filed : st.Filed gen blocks) : st.height = UInt32.ofNat blocks.length := by
  unfold DiskStore.height
  cases cache : st.cache with
  | none => exact filed.dbHeight
  | some tip => exact (filed.cached tip cache).1

theorem Logged.length_le (logged : Logged gen blocks st.cdb) :
    blocks.length ≤ DB.readableCount := by
  obtain ⟨-, es, -, readable, same⟩ := logged
  rw [same.length_eq]
  exact readable.length

theorem Logged.loggedBlock [LawfulGzip] [LawfulBlockCodec Tx]
    (hashSize : ∀ bytes, (HashFunction.hash bytes).length = 32)
    (logged : Logged gen blocks st.cdb) {i : Nat} {b : Block Tx} (at_i : blocks[i]? = some b) :
    st.loggedBlock (UInt32.ofNat (i + 1)) = .ok b := by
  obtain ⟨encodable, es, rep, readable, same⟩ := logged
  have sizes : ∀ e ∈ es, e.dataHash.length = 32 := by
    intro e mem
    obtain ⟨other, -, records⟩ := forall₂_right same e mem
    rw [records.dataHash]
    exact hashSize _
  obtain ⟨below, here⟩ := List.getElem?_eq_some_iff.mp at_i
  have below' : i < es.length := by rwa [← same.length_eq]
  have records : Records b es[i] := by
    rw [← here]
    exact same.get below below'
  obtain ⟨events, -, datas⟩ := records.datas
  have answer := (rep.answers sizes readable).datas i es[i] 0 2 (List.getElem?_eq_getElem below')
    (by rw [datas]; simp)
  have whole : ((es[i].datas.drop 0).take 2).flatten =
      HeaderCodec.marshal b.header ++ BlockCodec.marshalBody b := by
    rw [datas]
    simp
  rw [DiskStore.loggedBlock, answer, whole]
  exact LawfulBlockCodec.unmarshalBlock_marshal b (encodable b (List.mem_of_getElem? at_i))

end DiskStore

end Fleta
