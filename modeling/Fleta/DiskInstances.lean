import Fleta.DiskStore
import Fleta.Instances
import Fleta.SelfDelimiting

/-!
# A concrete store over its pile database

Encodings of headers and blocks that can be read back, and a hash of 32 bytes, so that the
results about the store can be evaluated.
-/

namespace Fleta.DiskInstances

open Instances SelfDelimiting

def address : SelfDelimiting Address :=
  bytes.along Address.bytes Database.addressOf Database.addressOf_bytes

def header : SelfDelimiting Header :=
  (pair (pair (pair byte uint16) (pair uint32 bytes))
    (pair (pair bytes bytes) (pair (pair uint64 address) bytes))).along
    (fun bh => (((bh.chainID, bh.version), (bh.height, bh.prevHash)),
      ((bh.levelRootHash, bh.contextHash), ((bh.timestamp, bh.generator), bh.consensusData))))
    (fun ⟨⟨⟨chainID, version⟩, ⟨height, prevHash⟩⟩,
      ⟨⟨levelRootHash, contextHash⟩, ⟨⟨timestamp, generator⟩, consensusData⟩⟩⟩ =>
      ⟨chainID, version, height, prevHash, levelRootHash, contextHash, timestamp, generator,
        consensusData⟩)
    (fun _ => rfl)

def setData : SelfDelimiting SetData :=
  (pair uint64 (pair bytes bytes)).along (fun tx => (tx.timestamp, (tx.name, tx.value)))
    (fun ⟨timestamp, ⟨name, value⟩⟩ => ⟨timestamp, name, value⟩) (fun _ => rfl)

def body : SelfDelimiting
    ((List UInt16 × List SetData) × (List (List Signature) × List Signature)) :=
  pair (pair (each uint16) (each setData)) (pair (each (each bytes)) (each bytes))

scoped instance (priority := 2000) : HeaderCodec := ⟨header.write⟩

scoped instance : BlockCodec SetData where
  marshalBody b := body.write
    ((b.transactionTypes, b.transactions), (b.transactionSignatures, b.signatures))
  unmarshalBlock input :=
    match (pair header body).read input with
    | some ((bh, ((types, txs), (txSigs, sigs))), _) => .ok ⟨bh, types, txs, txSigs, sigs⟩
    | none => .error .endOfFile
  unmarshalHeader input :=
    match header.read input with
    | some (bh, _) => .ok bh
    | none => .error .endOfFile

scoped instance : LawfulBlockCodec SetData where
  unmarshalBlock_marshal b _ := by
    have whole := (pair header body).read_write
      (b.header, ((b.transactionTypes, b.transactions), (b.transactionSignatures, b.signatures))) []
    rw [List.append_nil] at whole
    simp only [BlockCodec.unmarshalBlock, BlockCodec.marshalBody, HeaderCodec.marshal]
    rw [show header.write b.header ++ body.write
      ((b.transactionTypes, b.transactions), (b.transactionSignatures, b.signatures)) =
        (pair header body).write (b.header,
          ((b.transactionTypes, b.transactions), (b.transactionSignatures, b.signatures))) from rfl,
      whole]
  unmarshalHeader_marshal bh := by
    have whole := header.read_write bh []
    rw [List.append_nil] at whole
    simp only [BlockCodec.unmarshalHeader, HeaderCodec.marshal, whole]

scoped instance : EventListCodec PlainEvent where
  marshalEvents events := (each (pair uint16 bytes)).write (events.map fun ev => (ev.n, ev.payload))

scoped instance (priority := 2000) : HashFunction := ⟨fun _ => List.replicate 32 0⟩

def unusedStore : DiskStore SetData :=
  ⟨1, [], 1, .empty, 0, DB.empty, none, .empty⟩

def blockAt (height : UInt32) : Block SetData :=
  ⟨⟨1, 1, height, zeroHash, zeroHash, zeroHash, 5000000000, someAddress, []⟩, [], [], [], []⟩

def genesisStore : DiskStore SetData :=
  match unusedStore.storeGenesis zeroHash (.new none : ContextData SingleAccount PlainEvent) with
  | .ok st => st
  | .error _ => unusedStore

end Fleta.DiskInstances
