import Fleta.NextContext

/-!
# Deleted accounts before and after storing

A context hides a deleted account behind a mark of its layer; the store writes a tombstone
in its place and wipes the data under its address. The two are told apart: `HasAccount`
says no in the next context and fails over the store, and the data of the account are
still read in the next context.
-/

namespace Fleta

open Overlay Context SortedMap

variable {Acc Ev Tx : Type}

namespace Database

variable [Account Acc] [AccountCodec Acc] [TxOutCodec] {ctd : ContextData Acc Ev} {addr : Address}

omit [Account Acc] [AccountCodec Acc] [TxOutCodec] in
theorem get_eraseAccount_data (db : Database) (acc : Acc) (rest : Bytes) :
    (eraseAccount db (addr, acc)).get (toAccountDataKey (addr.bytes ++ rest)) = none := by
  unfold eraseAccount
  rw [get_foldl_delete]
  split
  · rfl
  · rename_i unlisted
    cases found : (db.put (toAccountKey addr) [0]).get (toAccountDataKey (addr.bytes ++ rest)) with
    | none => rfl
    | some value =>
      have under : toAccountDataKey addr.bytes <+: toAccountDataKey (addr.bytes ++ rest) :=
        ⟨rest, by rw [toAccountDataKey, toAccountDataKey, List.append_assoc]⟩
      refine absurd (List.mem_filter.mpr ⟨?_, ?_⟩) unlisted
      · exact (has_iff_key_visited _ _).mp (by rw [found]; rfl)
      · exact List.isPrefixOf_iff_prefix.mpr under

theorem get_written_data_deleted {acc : Acc} (deleted : ctd.deletedAccountMap.get addr = some acc)
    (db : Database) (pid : UInt8) (name : Bytes) :
    (written ctd db).get (toAccountDataKey (accountDataKey addr pid name)) = none := by
  have unchanged : (written ctd db).get (toAccountDataKey (accountDataKey addr pid name)) =
      (writeAccountState ctd db).get (toAccountDataKey (accountDataKey addr pid name)) :=
    get_write_other_state ctd _ _
  have owner : ∀ key other, toAccountDataKey key = toAccountDataKey other ↔ key = other :=
    fun _ _ => List.append_right_inj _
  rw [unchanged, accountDataKey, List.append_assoc]
  generalize pidString pid ++ name = rest
  have accounts : ∀ other, toAccountKey other ≠ toAccountDataKey (addr.bytes ++ rest) :=
    fun _ => tagged_ne rfl (by decide)
  unfold writeAccountState
  rw [get_foldl_eachAll _ _ (addr.bytes ++ rest) (fun _ _ => none) ?marked]
  case marked =>
    intro map entry
    rw [get_delete]
    simp only [owner]
  rw [get_foldl_eachAll _ _ addr (fun _ _ => none) ?erased, deleted]
  case erased =>
    rintro map ⟨other, gone⟩
    by_cases same : other = addr
    · rw [if_pos same, same]
      exact get_eraseAccount_data map gone rest
    · rw [if_neg same, get_eraseAccount map _ _ (data_key_outside same rest),
        get_put_of_ne _ _ (accounts _)]
  cases ctd.deletedAccountDataMap.get (addr.bytes ++ rest) <;> rfl

theorem get_written_account_deleted {acc : Acc}
    (deleted : ctd.deletedAccountMap.get addr = some acc) (db : Database) :
    (written ctd db).get (toAccountKey addr) = some [0] := by
  have unchanged : (written ctd db).get (toAccountKey addr) =
      (writeAccountState ctd db).get (toAccountKey addr) := get_write_other_state ctd _ _
  rw [unchanged, get_writeAccountState_account, has_eq, deleted]
  rfl

end Database

namespace Context

/-- What can be asked about a deleted account and its name has the same answers. -/
structure DeletedAlike (addr : Address) (name : Bytes) (left right : Context Acc Ev) : Prop where
  hasAccount : left.hasAccount addr = right.hasAccount addr
  account : (left.account addr).1 = (right.account addr).1
  accountData : ∀ pid key, (left.accountData addr pid key).1 = (right.accountData addr pid key).1
  hasAccountName : left.hasAccountName name = right.hasAccountName name
  addressByName : (left.addressByName name).1 = (right.addressByName name).1

variable {ctx : Context Acc Ev} {addr : Address} {acc : Acc}

theorem hasAccount_deleted (deleted : ctx.top.deletedAccountMap.get addr = some acc) :
    ctx.hasAccount addr = .ok false := by
  rw [hasAccount, ContextData.hasKey, has_eq, deleted]
  rfl

theorem account_deleted (deleted : ctx.top.deletedAccountMap.get addr = some acc) :
    (ctx.account addr).1 = .error .deletedAccount := by
  rw [account_fst, answer, List.map_cons, lookup]
  have marked : ((ContextData.accountSlot addr).layer ctx.top).answer = .deleted := by
    have has : ctx.top.deletedAccountMap.has addr = true := by
      rw [has_eq, deleted]
      rfl
    exact if_pos has
  rw [marked]
  rfl

end Context

namespace DiskStore

variable [Gzip] [HashFunction] [HeaderCodec] [BlockCodec Tx] [EventListCodec Ev] [Account Acc]
  [AccountCodec Acc] [TxOutCodec] [Base58] [Event Ev] {st st' : DiskStore Tx} {b : Block Tx}

/-- What the two say of a deleted account: the next context denies it where the store
fails, both fail to give it, and the data under its address are gone from the store only. -/
theorem deleted_account_reads (ops : List (Op Acc Ev))
    (stored : st.storeBlock none b (Op.run ops (new st.loader)).top = (.ok (), st'))
    {addr : Address} {acc : Acc}
    (deleted : (Op.run ops (new st.loader)).top.deletedAccountMap.get addr = some acc) :
    let ctx := Op.run ops (new st.loader)
    let left := ctx.nextContext b.header.hash b.header.timestamp
    let right : Context Acc Ev := new st'.loader
    (left.hasAccount addr = .ok false ∧ right.hasAccount addr = .error .deletedAccount) ∧
      (left.account addr).1 = (right.account addr).1 ∧
      ∀ pid name, (left.accountData addr pid name).1 = (right.accountData addr pid name).1 ↔
        (ctx.accountData addr pid name).1 = [] := by
  intro ctx left right
  have keeps := Op.run_keeps
    (Context.Sound.new st.loader : (new st.loader : Context Acc Ev).Sound) ops
  obtain ⟨cdb, db, applied, rfl⟩ := storeBlock_ok stored
  have written : db = Database.written ctx.top st.db := by
    rw [Database.applyContextData, utxo_ids_match keeps.sound
      (keeps.loader ▸ Database.toLoader_coherent st.status st.db)] at applied
    cases applied
    rfl
  have next : left.Fresh := fresh_nextContext _ _
  have fresh : right.Fresh := fresh_new _
  have tombstone := Database.get_written_account_deleted deleted st.db
  refine ⟨⟨?_, ?_⟩, ?_, fun pid name => ?_⟩
  · rw [next.hasAccount]
    exact hasAccount_deleted deleted
  · rw [fresh.hasAccount]
    change db.hasAccount addr = _
    rw [Database.hasAccount, written, tombstone]
    rfl
  · rw [next.account, fresh.account]
    change (ctx.sealed.account addr).1 = db.account addr
    rw [sealed_account, account_deleted deleted, Database.account, written, tombstone]
    rfl
  · rw [next.accountData, fresh.accountData]
    change (ctx.sealed.accountData addr pid name).1 = db.accountData addr pid name ↔ _
    rw [sealed_accountData, Database.accountData, written,
      Database.get_written_data_deleted deleted]
    rfl

/-- The answers about deleted accounts and their names are the same through the next context
and over the store exactly when no account was deleted. -/
theorem deleted_alike_iff (ops : List (Op Acc Ev))
    (stored : st.storeBlock none b (Op.run ops (new st.loader)).top = (.ok (), st')) :
    let ctx := Op.run ops (new st.loader)
    (∀ addr acc, ctx.top.deletedAccountMap.get addr = some acc →
      Context.DeletedAlike addr (Account.name acc)
        (ctx.nextContext b.header.hash b.header.timestamp) (new st'.loader)) ↔
      ∀ addr, ctx.top.deletedAccountMap.get addr = none := by
  intro ctx
  constructor
  · intro alike addr
    cases deleted : ctx.top.deletedAccountMap.get addr with
    | none => rfl
    | some acc =>
      have reads := (deleted_account_reads ops stored deleted).1
      have same := (alike addr acc deleted).hasAccount
      rw [reads.1, reads.2] at same
      cases same
  · intro none addr acc deleted
    rw [none addr] at deleted
    cases deleted

end DiskStore

namespace DiskInstances

open Instances DiskStore

/-- Nothing is deleted by the first operations, so nothing is told apart. -/
theorem deleted_alike_first_block : ∃ st' : DiskStore SetData,
    genesisStore.storeBlock none (blockAt 1) (Op.run firstOps (new genesisStore.loader)).top =
      (.ok (), st') ∧
    ∀ addr acc, (Op.run firstOps (new genesisStore.loader)).top.deletedAccountMap.get addr =
        some acc →
      Context.DeletedAlike addr (Account.name acc)
        ((Op.run firstOps (new genesisStore.loader)).nextContext (blockAt 1).header.hash
          (blockAt 1).header.timestamp) (new st'.loader) := by
  have stored : genesisStore.storeBlock none (blockAt 1)
      (Op.run firstOps (new genesisStore.loader)).top =
        (.ok (), (genesisStore.storeBlock none (blockAt 1)
          (Op.run firstOps (new genesisStore.loader)).top).2) :=
    eq_of_isOk (by decide +kernel)
  exact ⟨_, stored, (deleted_alike_iff firstOps stored).mpr fun addr => get_empty addr⟩

def storedAccount : SingleAccount := ⟨Address.new 1 1 0, [97], []⟩

def accountStore : DiskStore SetData :=
  (genesisStore.storeBlock none (blockAt 1)
    (Op.run [.createAccount storedAccount] (new genesisStore.loader) :
      Context SingleAccount PlainEvent).top).2

def deletingContext : Context SingleAccount PlainEvent :=
  Op.run [.deleteAccount storedAccount] (new accountStore.loader)

/-- The next context says that there is no such account, the store fails. -/
theorem deleted_account_told_apart : ∃ st' : DiskStore SetData,
    accountStore.storeBlock none (blockAt 2) deletingContext.top = (.ok (), st') ∧
      deletingContext.top.deletedAccountMap.get (Address.new 1 1 0) = some storedAccount ∧
      ¬Context.DeletedAlike (Address.new 1 1 0) (Account.name storedAccount)
        (deletingContext.nextContext (blockAt 2).header.hash (blockAt 2).header.timestamp)
        (new st'.loader) := by
  refine ⟨_, eq_of_isOk (by decide +kernel), by decide +kernel, fun alike => ?_⟩
  have same := alike.hasAccount
  revert same
  decide +kernel

end DiskInstances

end Fleta
