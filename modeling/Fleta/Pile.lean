import Fleta.File
import Fleta.Primitives

/-!
# Pile files

A pile holds the data of `chunkUnit` heights. Its file starts with the metadata: the head
height three times, the first and the last height and the genesis hash. Then follows a
table with the end of the record of each height, and then the records. A record is the
hash, the number of data items, the length of each compressed item and the items.

`appendData` is given by the list of its writes, so that a crash in the middle of it can
be described by a beginning of that list.
-/

namespace Fleta

open ByteOrder

class Gzip where
  compress : Bytes → Bytes
  decompress : Bytes → Except Err Bytes

/-- What is read back is what was compressed, and a stream that was cut off is noticed. -/
class LawfulGzip [Gzip] : Prop where
  decompress_compress : ∀ data, Gzip.decompress (Gzip.compress data) = .ok data
  decompress_take : ∀ data count, count < (Gzip.compress data).length →
    ∀ other, Gzip.decompress ((Gzip.compress data).take count) ≠ .ok other

namespace Pile

def chunkUnit : UInt32 := 172800 * 30

def chunkMetaSize : Nat := 256

def chunkHeaderSize : Nat := chunkUnit.toNat * 8 + chunkMetaSize

/-- The largest offset, an `int64`. -/
def maxFileSize : Nat := 2 ^ 63 - 1

end Pile

structure Pile where
  file : File
  headHeight : UInt32
  beginHeight : UInt32
  genHash : Hash256

def uint32ToBytes (value : UInt32) : Bytes := littleEndian 4 value.toNat

/-- `LittleEndian.Uint32(bytes[pos:])`, which needs four bytes there. -/
def uint32At (pos : Nat) (bytes : Bytes) : Except Err UInt32 :=
  if pos + 4 ≤ bytes.length then
    .ok (UInt32.ofNat (fromLittleEndian ((bytes.drop pos).take 4)))
  else .error .panicked

namespace File

/-- `Seek` and `Read`. There is nothing to read at the end of the file. -/
def read (pos len : Nat) (f : File) : Except Err Bytes :=
  if len ≠ 0 ∧ f.size ≤ pos then .error .endOfFile else .ok (f.slice pos len)

def tryWrites : List Write → File → Except Err Unit × File
  | [], f => (.ok (), f)
  | w :: ws, f =>
    if Pile.maxFileSize < w.stop then (.error .fileTooLarge, f) else tryWrites ws (f.write w)

def recordEnd (count : Nat) (f : File) : Except Err Nat :=
  if count = 0 then .ok Pile.chunkHeaderSize
  else (f.read (Pile.chunkMetaSize + (count - 1) * 8) 8).map fromLittleEndian

/-- An offset of `2 ^ 63` or more is a negative `int64`. -/
def seekRecordEnd (count : Nat) (f : File) : Except Err Nat := do
  let offset ← f.recordEnd count
  if Pile.maxFileSize < offset then throw .invalidSeek
  return offset

end File

namespace Pile

def newMeta (genHash : Hash256) (baseHeight : UInt32) : Bytes :=
  copyInto chunkMetaSize (uint32ToBytes baseHeight ++ uint32ToBytes baseHeight ++
    uint32ToBytes baseHeight ++ uint32ToBytes baseHeight ++
    uint32ToBytes (baseHeight + chunkUnit) ++ copyInto 32 genHash)

def newPile (genHash : Hash256) (baseHeight : UInt32) : Except Err Pile :=
  if baseHeight % chunkUnit ≠ 0 then .error .invalidChunkBeginHeight
  else .ok {
    file := (File.empty.grow chunkHeaderSize).write ⟨0, newMeta genHash baseHeight⟩
    headHeight := baseHeight
    beginHeight := baseHeight
    genHash := genHash }

/-- The head height and the writes that repair a file whose writer stopped while it was
writing the three copies of it. -/
def repair (headHeight checkA checkB : UInt32) : Except Err (UInt32 × List Write) :=
  if headHeight = checkA ∧ checkA = checkB then .ok (headHeight, [])
  else if checkA = checkB then .ok (checkA, [⟨0, uint32ToBytes checkA⟩])
  else if headHeight = checkB + 1 then
    .ok (headHeight, [⟨4, uint32ToBytes headHeight⟩, ⟨8, uint32ToBytes headHeight⟩])
  else if headHeight = checkA then .ok (headHeight, [⟨8, uint32ToBytes headHeight⟩])
  else .error .heightCrashed

def loadPile (f : File) : Except Err Pile := do
  let metadata ← f.read 0 chunkMetaSize
  let headHeight ← uint32At 0 metadata
  let checkA ← uint32At 4 metadata
  let checkB ← uint32At 8 metadata
  let beginHeight ← uint32At 12 metadata
  let endHeight ← uint32At 16 metadata
  let genHash := (metadata.drop 20).take 32
  if beginHeight % chunkUnit ≠ 0 then throw .invalidChunkBeginHeight
  if beginHeight + chunkUnit ≠ endHeight then throw .invalidChunkEndHeight
  let (headHeight, writes) ← repair headHeight checkA checkB
  let f := f.writeAll writes
  let offset ← f.recordEnd (headHeight - beginHeight).toNat
  if offset ≤ maxFileSize ∧ f.size < offset then throw .invalidFileSize
  return { file := f, headHeight := headHeight, beginHeight := beginHeight, genHash := genHash }

section Append

variable [Gzip]

/-- The pieces of a record, each written on its own. -/
def recordChunks (dataHash : Hash256) (datas : List Bytes) : List Bytes :=
  let zdatas := datas.map Gzip.compress
  [copyInto 32 dataHash, [UInt8.ofNat datas.length]] ++
    (zdatas.map (fun zd => littleEndian 4 zd.length) ++ zdatas)

def totalLen (datas : List Bytes) : Nat :=
  32 + 1 + 4 * datas.length + ((datas.map Gzip.compress).map List.length).sum

/-- The writes of `AppendData` in their order: the record, the entry of the table, and the
new head height three times. -/
def appendWrites (offset : Nat) (dataHash : Hash256) (datas : List Bytes) (p : Pile) : List Write :=
  let head := uint32ToBytes (p.headHeight + 1)
  Write.consecutive offset (recordChunks dataHash datas) ++
    [⟨chunkMetaSize + (p.headHeight - p.beginHeight).toNat * 8,
      littleEndian 8 (offset + totalLen datas)⟩, ⟨0, head⟩, ⟨4, head⟩, ⟨8, head⟩]

def appendData (height : UInt32) (dataHash : Hash256) (datas : List Bytes) (p : Pile) :
    Except Err Unit × Pile :=
  if height ≠ p.headHeight + 1 then (.error .invalidAppendHeight, p)
  else
    match p.file.seekRecordEnd (p.headHeight - p.beginHeight).toNat with
    | .error err => (.error err, p)
    | .ok offset =>
      match p.file.tryWrites (p.appendWrites offset dataHash datas) with
      | (.error err, f) => (.error err, { p with file := f })
      | (.ok _, f) => (.ok (), { p with file := f, headHeight := p.headHeight + 1 })

end Append

def recordOffset (height : UInt32) (p : Pile) : Except Err Nat :=
  p.file.seekRecordEnd ((height - p.beginHeight).toNat - 1)

def getHash (height : UInt32) (p : Pile) : Except Err Hash256 := do
  if height > p.beginHeight + chunkUnit then throw .invalidPileHeight
  let offset ← p.recordOffset height
  p.file.read offset 32

def itemCount (height : UInt32) (p : Pile) : Except Err (Nat × UInt8) := do
  if height > p.beginHeight + chunkUnit then throw .invalidPileHeight
  if height > p.headHeight then throw .invalidPileHeight
  let offset ← p.recordOffset height
  let lbs ← p.file.read (offset + 32) 1
  return (offset, lbs.headD 0)

def skipItems (zlbs : Bytes) : Nat → Nat → Except Err Nat
  | 0, zofs => .ok zofs
  | index + 1, zofs => do
      let zofs ← skipItems zlbs index zofs
      let zsize ← uint32At (4 * index) zlbs
      return zofs + zsize.toNat

variable [Gzip]

def readItem (zlbs : Bytes) (index zofs : Nat) (p : Pile) : Except Err (Bytes × Nat) := do
  let zsize ← uint32At (4 * index) zlbs
  let zd ← p.file.read zofs zsize.toNat
  let data ← Gzip.decompress zd
  return (data, zofs + zsize.toNat)

/-- The product `4*lbs[0]` is one of bytes. -/
def getData (height : UInt32) (index : Nat) (p : Pile) : Except Err Bytes := do
  let (offset, lbs) ← p.itemCount height
  if lbs.toNat ≤ index then throw .invalidDataIndex
  let zlbs ← p.file.read (offset + 32 + 1) (4 * lbs).toNat
  let zofs ← skipItems zlbs index (offset + 32 + 1 + (4 * lbs).toNat)
  let (data, _) ← p.readItem zlbs index zofs
  return data

def readItems (zlbs : Bytes) (p : Pile) : Nat → Nat → Nat → Except Err Bytes
  | _, 0, _ => .ok []
  | start, count + 1, zofs => do
      let (data, zofs) ← p.readItem zlbs start zofs
      let rest ← readItems zlbs p (start + 1) count zofs
      return data ++ rest

def getDatas (height : UInt32) (start count : Nat) (p : Pile) : Except Err Bytes := do
  let (offset, lbs) ← p.itemCount height
  if lbs.toNat < start + count then throw .invalidDataIndex
  let zlbs ← p.file.read (offset + 32 + 1) (4 * lbs).toNat
  let zofs ← skipItems zlbs start (offset + 32 + 1 + (4 * lbs).toNat)
  p.readItems zlbs start count zofs

end Pile

end Fleta
