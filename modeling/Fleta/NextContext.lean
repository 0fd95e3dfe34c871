import Fleta.DiskInstances
import Fleta.TimeSlots

/-!
# The next context and the committed state

A formulator builds several blocks in a row without waiting for the first to be stored:
`NextContext` puts a context under the next one, as its loader. A fresh context answers
what its loader answers, so the next context answers what the context below it does, and
that is what the store answers once the only layer of that context is applied to it.
-/

namespace Fleta

open Overlay Context ContextCache

variable {Acc Ev Tx : Type}

namespace Context

def sealed (ctx : Context Acc Ev) : Context Acc Ev :=
  { ctx with top := { ctx.top with isTop := false } }

def toLoader (ctx : Context Acc Ev) : Loader Acc where
  chainID := ctx.loader.chainID
  name := ctx.loader.name
  version := ctx.loader.version
  targetHeight := ctx.genTargetHeight
  lastHash := ctx.genLastHash
  lastTimestamp := ctx.genTimestamp
  account addr := (ctx.account addr).1
  addressByName name := (ctx.addressByName name).1
  hasAccount addr := ctx.hasAccount addr
  hasAccountName name := ctx.hasAccountName name
  accountData addr pid name := (ctx.accountData addr pid name).1
  hasUTXO id := ctx.hasUTXO id
  utxo id := (ctx.utxo id).1
  processData pid name := (ctx.processData pid name).1
  hasTimeSlot slot key := (ctx.hasTimeSlot slot key).1

def nextContext (nextHash : Hash256) (timestamp : UInt64) (ctx : Context Acc Ev) : Context Acc Ev :=
  { (new ctx.sealed.toLoader : Context Acc Ev) with
    genTargetHeight := ctx.genTargetHeight + 1
    genLastHash := nextHash
    genTimestamp := timestamp }

structure Fresh (ctx : Context Acc Ev) : Prop where
  top : ctx.top = .new none
  parents : ctx.parents = []
  cache : ctx.cache = .new

variable {ctx : Context Acc Ev}

theorem fresh_new (loader : Loader Acc) : (new loader : Context Acc Ev).Fresh := ⟨rfl, rfl, rfl⟩

theorem fresh_nextContext (nextHash : Hash256) (timestamp : UInt64) :
    (ctx.nextContext nextHash timestamp).Fresh := ⟨rfl, rfl, rfl⟩

namespace Fresh

variable (fresh : ctx.Fresh)

include fresh

theorem read {Value Result : Type} (slot : Slot Acc Ev Value Result)
    (below : ContextCache Acc → Result × ContextCache Acc)
    (silent : slot.deleted (.new none) = false ∧ slot.value (.new none) = none) :
    (ctx.read slot below).1 = (below .new).1 := by
  rw [Context.read, fresh.top, fresh.parents, fresh.cache, ContextData.read, silent.1, silent.2]
  rfl

variable (addr : Address)

theorem account : (ctx.account addr).1 = ctx.loader.account addr := by
  have touched : ctx.touch.Fresh := { fresh with }
  rw [Context.account, touched.read _ _ ⟨rfl, rfl⟩]
  exact (account_spec (new_agrees ctx.loader) addr).1

theorem hasAccount : ctx.hasAccount addr = ctx.loader.hasAccount addr := by
  rw [Context.hasAccount, fresh.top, fresh.parents, fresh.cache]
  rfl

theorem accountData (pid : UInt8) (name : Bytes) :
    (ctx.accountData addr pid name).1 = ctx.loader.accountData addr pid name := by
  rw [Context.accountData, fresh.read _ _ ⟨rfl, rfl⟩]
  exact (accountData_spec (new_agrees ctx.loader) addr pid name).1

theorem processData (pid : UInt8) (name : Bytes) :
    (ctx.processData pid name).1 = ctx.loader.processData pid name := by
  rw [Context.processData, fresh.read _ _ ⟨rfl, rfl⟩]
  exact (processData_spec (new_agrees ctx.loader) pid name).1

theorem hasTimeSlot (slot : UInt32) (key : Bytes) :
    (ctx.hasTimeSlot slot key).1 = ctx.loader.hasTimeSlot slot key := by
  rw [Context.hasTimeSlot, fresh.top, fresh.cache]
  exact (hasTimeSlot_spec (new_agrees ctx.loader) slot key).1

end Fresh

/-- The reads from which the next block is built, for the addresses and time slots that
matter to it. -/
structure AgreesOn (alive : Address → Prop) (live : UInt32 → Prop)
    (left right : Context Acc Ev) : Prop where
  targetHeight : left.genTargetHeight = right.genTargetHeight
  lastHash : left.genLastHash = right.genLastHash
  lastTimestamp : left.genTimestamp = right.genTimestamp
  account : ∀ addr, alive addr → (left.account addr).1 = (right.account addr).1
  hasAccount : ∀ addr, alive addr → left.hasAccount addr = right.hasAccount addr
  accountData : ∀ addr, alive addr → ∀ pid name,
    (left.accountData addr pid name).1 = (right.accountData addr pid name).1
  processData : ∀ pid name, (left.processData pid name).1 = (right.processData pid name).1
  hasTimeSlot : ∀ slot, live slot → ∀ key,
    (left.hasTimeSlot slot key).1 = (right.hasTimeSlot slot key).1

section Stored

variable [Account Acc] [AccountCodec Acc] [TxOutCodec] [Base58] {db : Database}
  {status : Database.Status}

theorem stored_processData (sound : ctx.Sound) (atop : ctx.loader = db.toLoader status)
    (single : ctx.parents = []) (pid : UInt8) (name : Bytes) :
    (Database.written ctx.top db).processData pid name = (ctx.processData pid name).1 := by
  rw [Database.processData, Database.get_written_process, processData_fst, answer_single single,
    (processData_spec sound.agrees pid name).1, atop, Database.toLoader]
  simp only [Slot.layer, ContextData.processDataSlot, Layer.answer, SortedMap.has_eq]
  cases ctx.top.deletedProcessDataMap.get (processDataKey pid name) with
  | some mark => simp [Slot.result]
  | none =>
    cases ctx.top.processDataMap.get (processDataKey pid name) <;>
      simp [Slot.result, Database.processData]

end Stored

variable (addr : Address)

theorem sealed_account : (ctx.sealed.account addr).1 = (ctx.account addr).1 := by
  rw [account_fst, account_fst]
  rfl

theorem sealed_accountData (pid : UInt8) (name : Bytes) :
    (ctx.sealed.accountData addr pid name).1 = (ctx.accountData addr pid name).1 := by
  rw [accountData_fst, accountData_fst]
  rfl

theorem sealed_processData (pid : UInt8) (name : Bytes) :
    (ctx.sealed.processData pid name).1 = (ctx.processData pid name).1 := by
  rw [processData_fst, processData_fst]
  rfl

theorem sealed_hasTimeSlot (slot : UInt32) (key : Bytes) :
    (ctx.sealed.hasTimeSlot slot key).1 = (ctx.hasTimeSlot slot key).1 := by
  unfold hasTimeSlot sealed
  split <;> rfl

end Context

namespace DiskStore

variable [Gzip] [HashFunction] [HeaderCodec] [BlockCodec Tx] [EventListCodec Ev] [Account Acc]
  [AccountCodec Acc] [TxOutCodec] [Base58] {st st' : DiskStore Tx} {b : Block Tx}
  {ctd : ContextData Acc Ev}

omit [Base58] in
/-- A stored block has been committed, whatever the log answered. -/
theorem storeBlock_ok (stored : st.storeBlock none b ctd = (.ok (), st')) :
    ∃ cdb db, st.db.applyContextData ctd = .ok db ∧
      st' = ({ st with cdb := cdb } : DiskStore Tx).committed b ctd db := by
  have updated : ∀ cdb, update none b ctd { st with cdb := cdb } = (.ok (), st') →
      ∃ db, st.db.applyContextData ctd = .ok db ∧
        st' = ({ st with cdb := cdb } : DiskStore Tx).committed b ctd db := by
    intro cdb done
    unfold update at done
    cases applied : st.db.applyContextData ctd with
    | error err =>
      rw [applied] at done
      cases done
    | ok db =>
      rw [applied] at done
      cases done
      exact ⟨db, rfl, rfl⟩
  unfold storeBlock at stored
  split at stored
  · cases stored
  split at stored
  · rename_i cdb _
    exact ⟨cdb, updated cdb stored⟩
  · rename_i cdb _
    split at stored
    · cases stored
    · exact ⟨cdb, updated cdb stored⟩

omit [EventListCodec Ev] [Account Acc] [AccountCodec Acc] [TxOutCodec] [Base58] in
theorem committed_status (cdb : DB) (db : Database) (positive : b.header.height ≠ 0) :
    (({ st with cdb := cdb } : DiskStore Tx).committed b ctd db).status = { st.status with
        targetHeight := b.header.height + 1
        lastHash := b.header.hash
        lastTimestamp := b.header.timestamp
        timeSlotMap := (TimeSlotMap.addAll ctd.timeSlotMap st.timeSlotMap).prune
          (toTimeSlot b.header.timestamp) } := by
  have least : ¬b.header.height < 1 := by
    rw [UInt32.lt_iff_toNat_lt]
    intro below
    exact positive (UInt32.toNat_inj.mp (Nat.lt_one_iff.mp below))
  simp [status, committed, targetHeight, lastHash, lastTimestamp, height, hash, header, cachedAt,
    tipBlock, positive, least, Except.map, Option.filter]

/-- For every store below the last height and every context that operations build on it,
with no snapshot left open, the next context reads what a context over the store reads
once the block is stored. -/
theorem next_context_reads_stored [Event Ev] (ops : List (Op Acc Ev))
    (last : st.height ≠ 0xFFFFFFFF) (single : (Op.run ops (new st.loader)).parents = [])
    (built : b.header.height = (Op.run ops (new st.loader)).genTargetHeight)
    (stored : st.storeBlock none b (Op.run ops (new st.loader)).top = (.ok (), st')) :
    Context.AgreesOn
      (fun addr => (Op.run ops (new st.loader)).top.deletedAccountMap.get addr = none)
      (fun slot => ¬slot < toTimeSlot b.header.timestamp - 1)
      ((Op.run ops (new st.loader)).nextContext b.header.hash b.header.timestamp)
      (new st'.loader) := by
  have keeps := Op.run_keeps
    (Context.Sound.new st.loader : (new st.loader : Context Acc Ev).Sound) ops
  generalize Op.run ops (new st.loader) = ctx at *
  obtain ⟨sound, atop, target⟩ := keeps
  obtain ⟨cdb, db, applied, rfl⟩ := storeBlock_ok stored
  have height : b.header.height = st.height + 1 := built.trans target
  have positive : b.header.height ≠ 0 := by
    rw [height]
    intro wraps
    have fill := congrArg (· + 0xFFFFFFFF) wraps
    simp only [UInt32.add_assoc] at fill
    exact last (by simpa using fill)
  have written : db = Database.written ctx.top st.db := by
    rw [Database.applyContextData,
      utxo_ids_match sound (atop ▸ Database.toLoader_coherent st.status st.db)] at applied
    cases applied
    rfl
  have below : ctx.loader = st.db.toLoader st.status := atop
  have left : (ctx.nextContext b.header.hash b.header.timestamp).Fresh := fresh_nextContext _ _
  have right : (new (({ st with cdb := cdb } : DiskStore Tx).committed b ctx.top db).loader :
      Context Acc Ev).Fresh := fresh_new _
  refine ⟨?_, ?_, ?_, ?_, ?_, ?_, ?_, ?_⟩
  · change ctx.genTargetHeight + 1 = (DiskStore.status _).targetHeight
    rw [committed_status cdb db positive, built]
  · change b.header.hash = (DiskStore.status _).lastHash
    rw [committed_status cdb db positive]
  · change b.header.timestamp = (DiskStore.status _).lastTimestamp
    rw [committed_status cdb db positive]
  · intro addr alive
    rw [left.account, right.account]
    change (ctx.sealed.account addr).1 = db.account addr
    rw [sealed_account, written, stored_account sound below single alive]
  · intro addr alive
    rw [left.hasAccount, right.hasAccount]
    change ctx.hasAccount addr = db.hasAccount addr
    rw [written, stored_hasAccount sound below single alive]
  · intro addr alive pid name
    rw [left.accountData, right.accountData]
    change (ctx.sealed.accountData addr pid name).1 = db.accountData addr pid name
    rw [sealed_accountData, written, stored_accountData sound below single alive]
  · intro pid name
    rw [left.processData, right.processData]
    change (ctx.sealed.processData pid name).1 = db.processData pid name
    rw [sealed_processData, written, stored_processData sound below single]
  · intro slot live key
    rw [left.hasTimeSlot, right.hasTimeSlot]
    change (ctx.sealed.hasTimeSlot slot key).1 = (DiskStore.status _).timeSlotMap.hasKey slot key
    rw [sealed_hasTimeSlot, sound.hasTimeSlot_fst, committed_status cdb db positive, below]
    rw [TimeSlotMap.hasKey_prune, TimeSlotMap.hasKey_addAll, decide_eq_false live]
    rfl

end DiskStore

namespace DiskInstances

open Instances DiskStore

theorem eq_of_isOk {outcome : Except Err Unit × DiskStore SetData}
    (done : outcome.1.isOk = true) : outcome = (.ok (), outcome.2) := by
  obtain ⟨result, st⟩ := outcome
  cases result with
  | ok => rfl
  | error err => cases done

def lastStore : DiskStore SetData :=
  (genesisStore.storeBlock none (blockAt 0xFFFFFFFF)
    (.new none : ContextData SingleAccount PlainEvent)).2

def lastContext : Context SingleAccount PlainEvent := .new lastStore.loader

/-- Behind the last height comes height zero, for which a store has no timestamp. -/
theorem next_context_differs_at_last_height : ∃ st' : DiskStore SetData,
    lastStore.storeBlock none (blockAt 0) lastContext.top = (.ok (), st') ∧
      (blockAt 0).header.height = lastContext.genTargetHeight ∧
      (lastContext.nextContext (blockAt 0).header.hash
          (blockAt 0).header.timestamp).genTimestamp ≠
        (new st'.loader : Context SingleAccount PlainEvent).genTimestamp := by
  refine ⟨_, eq_of_isOk ?_, ?_, ?_⟩ <;> decide +kernel

def firstOps : List (Op SingleAccount PlainEvent) :=
  [.setProcessData 1 [0] [7], .useTimeSlot 0 [1]]

def firstContext : Context SingleAccount PlainEvent := Op.run firstOps (.new genesisStore.loader)

theorem next_context_reads_first_block : ∃ st' : DiskStore SetData,
    genesisStore.storeBlock none (blockAt 1) firstContext.top = (.ok (), st') ∧
      ((firstContext.nextContext (blockAt 1).header.hash
        (blockAt 1).header.timestamp).processData 1 [0]).1 = [7] ∧
      Context.AgreesOn (fun addr => firstContext.top.deletedAccountMap.get addr = none)
        (fun slot => ¬slot < toTimeSlot (blockAt 1).header.timestamp - 1)
        (firstContext.nextContext (blockAt 1).header.hash (blockAt 1).header.timestamp)
        (new st'.loader) := by
  have below : genesisStore.height ≠ 0xFFFFFFFF := by decide +kernel
  have single : firstContext.parents = [] := by rfl
  have built : (blockAt 1).header.height = firstContext.genTargetHeight := by decide +kernel
  have stored : genesisStore.storeBlock none (blockAt 1) firstContext.top =
      (.ok (), (genesisStore.storeBlock none (blockAt 1) firstContext.top).2) :=
    eq_of_isOk (by decide +kernel)
  exact ⟨_, stored, by decide +kernel, next_context_reads_stored firstOps below single built stored⟩

end DiskInstances

end Fleta
