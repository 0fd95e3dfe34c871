import Fleta.Instances

/-!
# What a commit does to reads

`Commit` merges the layers from a snapshot on into the layer below. It writes the
values of a layer over those of its parent and then removes the keys the layer
deleted, but it never clears a deletion mark of the parent that a value of the child
supersedes. A read finds the mark first, so such a value is lost.

`NothingShadowed` is the exact condition under which a commit cannot be told apart
by reads, and `Database.applyContextData` then stores what the reads answered.
-/

namespace Fleta

open Overlay ContextData Database SortedMap

variable {Acc Ev Value Result : Type}

/-- A kind of data whose layers are merged as overlays. -/
structure Slot.Merges (slot : Slot Acc Ev Value Result) : Prop where
  merge : ∀ child parent,
    slot.layer (mergeInto child parent) = merge (slot.layer child) (slot.layer parent)
  withTop : ∀ (ctd : ContextData Acc Ev) isTop,
    slot.layer { ctd with isTop := isTop } = slot.layer ctd

theorem merged_layer {Key Held Mark : Type} [Ord Key] [Std.TransOrd Key]
    [Std.LawfulEqOrd Key] (childMarks parentMarks : SortedMap Key Mark)
    (child parent : SortedMap Key Held) (key : Key) :
    (⟨(putAll childMarks parentMarks).has key,
        (deleteAll childMarks (putAll child parent)).get key⟩ : Layer Held) =
      merge ⟨childMarks.has key, child.get key⟩ ⟨parentMarks.has key, parent.get key⟩ := by
  simp only [merge, has_eq, get_putAll, get_deleteAll]
  cases childMarks.get key <;> simp

namespace ContextData

theorem accountSlot_merges (addr : Address) :
    (accountSlot addr : Slot Acc Ev Acc (Except Err Acc)).Merges :=
  ⟨fun _ _ => merged_layer _ _ _ _ addr, fun _ _ => rfl⟩

theorem accountDataSlot_merges (key : Bytes) :
    (accountDataSlot key : Slot Acc Ev Bytes Bytes).Merges :=
  ⟨fun _ _ => merged_layer _ _ _ _ key, fun _ _ => rfl⟩

theorem processDataSlot_merges (key : Bytes) :
    (processDataSlot key : Slot Acc Ev Bytes Bytes).Merges :=
  ⟨fun _ _ => merged_layer _ _ _ _ key, fun _ _ => rfl⟩

theorem commitLoop_layer {slot : Slot Acc Ev Value Result} (merges : slot.Merges) (sn : Nat)
    (ctd : ContextData Acc Ev) (parents : List (ContextData Acc Ev)) :
    slot.layer (commitLoop sn ctd parents).1 =
      collapse (slot.layer ctd) ((parents.take (parents.length + 2 - sn)).map slot.layer) := by
  induction parents generalizing ctd with
  | nil => simp [commitLoop, collapse]
  | cons parent rest ih =>
    rw [commitLoop, List.length_cons]
    by_cases reached : rest.length + 2 ≥ sn
    · have count : rest.length + 1 + 2 - sn = rest.length + 2 - sn + 1 := by omega
      rw [if_pos reached, ih, count, List.take_succ_cons, List.map_cons, collapse, merges.merge]
    · have count : rest.length + 1 + 2 - sn = 0 := by omega
      rw [if_neg reached, count, List.take_zero, List.map_nil, collapse]

end ContextData

namespace Context

/-- The layers that `Commit` merges into one, top first: all layers from the snapshot
on and the one they are merged into. -/
def mergedLayers (sn : Nat) (ctx : Context Acc Ev) : List (ContextData Acc Ev) :=
  ctx.top :: ctx.parents.take (ctx.parents.length + 2 - sn)

/-- The newest merged layer that speaks of the key of the slot holds a value for it,
and an older merged layer has it marked as deleted. -/
def Shadows (slot : Slot Acc Ev Value Result) (sn : Nat) (ctx : Context Acc Ev) : Prop :=
  Shadowed ((ctx.mergedLayers sn).map slot.layer)

variable {slot : Slot Acc Ev Value Result}

theorem lookup_commit (merges : slot.Merges) (sn : Nat) (ctx : Context Acc Ev) :
    lookup (((ctx.commit sn).top :: (ctx.commit sn).parents).map slot.layer) =
      (collapse (slot.layer ctx.top)
        ((ctx.parents.take (ctx.parents.length + 2 - sn)).map slot.layer)).answer.orElse
        (lookup ((ctx.parents.drop (ctx.parents.length + 2 - sn)).map slot.layer)) := by
  have top : slot.layer (ctx.commit sn).top = collapse (slot.layer ctx.top)
      ((ctx.parents.take (ctx.parents.length + 2 - sn)).map slot.layer) := by
    rw [← commitLoop_layer merges]
    exact merges.withTop _ true
  have parents : (ctx.commit sn).parents = ctx.parents.drop (ctx.parents.length + 2 - sn) :=
    commitLoop_parents sn ctx.top ctx.parents
  rw [List.map_cons, lookup, top, parents]

theorem lookup_split (slot : Slot Acc Ev Value Result) (sn : Nat) (ctx : Context Acc Ev) :
    lookup ((ctx.top :: ctx.parents).map slot.layer) =
      (lookup ((ctx.mergedLayers sn).map slot.layer)).orElse
        (lookup ((ctx.parents.drop (ctx.parents.length + 2 - sn)).map slot.layer)) := by
  rw [← lookup_append, ← List.map_append, mergedLayers, List.cons_append, List.take_append_drop]

theorem answer_commit (merges : slot.Merges) (sn : Nat) (ctx : Context Acc Ev) (base : Result)
    (clear : ¬ctx.Shadows slot sn) : (ctx.commit sn).answer slot base = ctx.answer slot base := by
  unfold answer
  rw [lookup_commit merges, lookup_split slot sn, (collapse_answer _ _).2 clear]
  rfl

theorem answer_commit_shadowed (merges : slot.Merges) (sn : Nat) (ctx : Context Acc Ev)
    (base : Result) (shadowed : ctx.Shadows slot sn) :
    (ctx.commit sn).answer slot base = slot.gone := by
  unfold answer
  rw [lookup_commit merges, (collapse_answer _ _).1 shadowed]
  rfl

theorem answer_shadowed (slot : Slot Acc Ev Value Result) (sn : Nat) (ctx : Context Acc Ev)
    (base : Result) (shadowed : ctx.Shadows slot sn) :
    ∃ layer ∈ ctx.top :: ctx.parents, ∃ value, slot.value layer = some value ∧
      ctx.answer slot base = slot.hit value := by
  obtain ⟨_, member, value, _, held, found⟩ := shadowed_lookup shadowed
  obtain ⟨layer, layered, rfl⟩ := List.mem_map.mp member
  refine ⟨layer, ?_, value, held, ?_⟩
  · rcases List.mem_cons.mp layered with head | taken
    · simp [head]
    · exact List.mem_cons_of_mem _ (List.mem_of_mem_take taken)
  · unfold answer
    rw [lookup_split slot sn, found]
    rfl

structure SameReads (before after : Context Acc Ev) : Prop where
  account : ∀ addr, (after.account addr).1 = (before.account addr).1
  hasAccount : ∀ addr, after.hasAccount addr = before.hasAccount addr
  accountData : ∀ addr pid name,
    (after.accountData addr pid name).1 = (before.accountData addr pid name).1
  processData : ∀ pid name, (after.processData pid name).1 = (before.processData pid name).1

/-- No value that a commit moves down lies over a deletion mark it moves down with. -/
structure NothingShadowed (sn : Nat) (ctx : Context Acc Ev) : Prop where
  account : ∀ addr, ¬ctx.Shadows (accountSlot addr) sn
  accountData : ∀ addr pid name,
    ¬ctx.Shadows (accountDataSlot (accountDataKey addr pid name)) sn
  processData : ∀ pid name,
    ¬ctx.Shadows (processDataSlot (processDataKey pid name)) sn

variable (addr : Address) (ctx : Context Acc Ev)

theorem account_fst :
    (ctx.account addr).1 =
      ctx.answer (accountSlot addr) (ctx.cache.account ctx.loader addr).1 :=
  read_fst _ _ ctx.touch

theorem accountData_fst (pid : UInt8) (name : Bytes) (ctx : Context Acc Ev) :
    (ctx.accountData addr pid name).1 =
      ctx.answer (accountDataSlot (accountDataKey addr pid name))
        (ctx.cache.accountData ctx.loader addr pid name).1 :=
  read_fst _ _ ctx

theorem processData_fst (pid : UInt8) (name : Bytes) (ctx : Context Acc Ev) :
    (ctx.processData pid name).1 =
      ctx.answer (processDataSlot (processDataKey pid name))
        (ctx.cache.processData ctx.loader pid name).1 :=
  read_fst _ _ ctx

theorem Sound.hasTimeSlot_fst {ctx : Context Acc Ev} (sound : ctx.Sound)
    (slot : UInt32) (key : Bytes) : (ctx.hasTimeSlot slot key).1 =
      (ctx.top.timeSlotMap.hasKey slot key || ctx.loader.hasTimeSlot slot key) := by
  have base := (ContextCache.hasTimeSlot_spec sound.agrees slot key).1
  unfold Context.hasTimeSlot
  cases ctx.top.timeSlotMap.hasKey slot key with
  | true => rfl
  | false => exact base

theorem hasAccount_eq_lookup :
    ctx.hasAccount addr =
      match lookup ((ctx.top :: ctx.parents).map (accountSlot addr).layer) with
      | .silent => ctx.cache.hasAccount ctx.loader addr
      | .deleted => .ok false
      | .value _ => .ok true :=
  hasKey_eq (accountSlot addr) _ (fun _ => has_eq _ _) _ _

theorem sameReads_of_nothing_shadowed {sn : Nat} {ctx : Context Acc Ev}
    (clear : ctx.NothingShadowed sn) : ctx.SameReads (ctx.commit sn) where
  account addr := by
    rw [account_fst, account_fst]
    exact answer_commit (accountSlot_merges addr) sn ctx _ (clear.account addr)
  hasAccount addr := by
    have merges : (accountSlot addr : Slot Acc Ev Acc (Except Err Acc)).Merges :=
      accountSlot_merges addr
    rw [hasAccount_eq_lookup, hasAccount_eq_lookup, lookup_commit merges, lookup_split _ sn,
      (collapse_answer _ _).2 (clear.account addr)]
    rfl
  accountData addr pid name := by
    rw [accountData_fst, accountData_fst]
    exact answer_commit (accountDataSlot_merges _) sn ctx _ (clear.accountData addr pid name)
  processData pid name := by
    rw [processData_fst, processData_fst]
    exact answer_commit (processDataSlot_merges _) sn ctx _ (clear.processData pid name)

/-- In a sound context a shadowed key always reads differently after the commit: an
account becomes an error and a value, never empty, becomes empty. -/
theorem nothing_shadowed_of_sameReads {sn : Nat} {ctx : Context Acc Ev} (sound : ctx.Sound)
    (same : ctx.SameReads (ctx.commit sn)) : ctx.NothingShadowed sn where
  account addr shadowed := by
    have read := same.account addr
    obtain ⟨_, _, acc, _, before⟩ := answer_shadowed _ sn ctx
      (ctx.cache.account ctx.loader addr).1 shadowed
    rw [account_fst, account_fst, before,
      answer_commit_shadowed (accountSlot_merges addr) sn ctx _ shadowed] at read
    cases read
  accountData addr pid name shadowed := by
    have read := same.accountData addr pid name
    obtain ⟨layer, member, value, held, before⟩ := answer_shadowed _ sn ctx
      (ctx.cache.accountData ctx.loader addr pid name).1 shadowed
    rw [accountData_fst, accountData_fst, before,
      answer_commit_shadowed (accountDataSlot_merges _) sn ctx _ shadowed] at read
    exact (sound.tidy layer member).accountData _ value held read.symm
  processData pid name shadowed := by
    have read := same.processData pid name
    obtain ⟨layer, member, value, held, before⟩ := answer_shadowed _ sn ctx
      (ctx.cache.processData ctx.loader pid name).1 shadowed
    rw [processData_fst, processData_fst, before,
      answer_commit_shadowed (processDataSlot_merges _) sn ctx _ shadowed] at read
    exact (sound.tidy layer member).processData _ value held read.symm

end Context

section Store

variable [Account Acc] [AccountCodec Acc] [TxOutCodec] [Base58]

omit [Account Acc] in
theorem Database.toLoader_coherent (status : Database.Status) (db : Database) :
    (db.toLoader status : Loader Acc).Coherent where
  hasAccount _ _ := hasAccount_of_account
  utxoID _ _ := utxo_id

/-- Applied to the database, the layer makes it answer for every account that is not
deleted what the context answers. -/
def Context.StoresReads (db : Database) (ctx : Context Acc Ev) (top : ContextData Acc Ev) : Prop :=
  ∃ stored, applyContextData top db = .ok stored ∧
    ∀ addr, (ctx.account addr).1 ≠ .error .deletedAccount →
      stored.account addr = (ctx.account addr).1 ∧
      stored.hasAccount addr = ctx.hasAccount addr ∧
      ∀ pid name, stored.accountData addr pid name = (ctx.accountData addr pid name).1

variable {ctx : Context Acc Ev} {db : Database}

section

omit [TxOutCodec] [Base58] [AccountCodec Acc] [Account Acc]

theorem Context.utxo_ids_match (sound : ctx.Sound) (coherent : ctx.loader.Coherent) :
    (ctx.top.utxoMap.eachAll.any fun entry => entry.2.id != entry.1) = false := by
  rw [List.any_eq_false]
  rintro ⟨id, utxo⟩ member
  have own := sound.tidyTop.utxo coherent id utxo ((mem_eachAll _ _ _).mp member)
  simp [own]

theorem Context.answer_single (single : ctx.parents = []) (slot : Slot Acc Ev Value Result)
    (base : Result) : ctx.answer slot base = slot.result base (slot.layer ctx.top).answer := by
  rw [answer, single, List.map_cons, List.map_nil, lookup, lookup]
  cases (slot.layer ctx.top).answer <;> rfl

theorem Context.not_deleted_single (single : ctx.parents = []) {addr : Address}
    (alive : (ctx.account addr).1 ≠ .error .deletedAccount) :
    ctx.top.deletedAccountMap.get addr = none := by
  cases marked : ctx.top.deletedAccountMap.get addr with
  | none => rfl
  | some acc =>
    refine absurd ?_ alive
    rw [account_fst, answer_single single]
    simp [Slot.layer, accountSlot, Layer.answer, marked, Slot.result]

end

section Single

variable {status : Database.Status} (sound : ctx.Sound)
  (atop : ctx.loader = db.toLoader status) (single : ctx.parents = [])
  {addr : Address} (kept : ctx.top.deletedAccountMap.get addr = none)

include sound atop single kept

theorem Context.stored_account :
    (Database.written ctx.top db).account addr = (ctx.account addr).1 := by
  have stored := Database.get_written_account ctx.top db kept
  rw [account_fst, answer_single single, (ContextCache.account_spec sound.agrees addr).1, atop,
    Database.toLoader]
  simp only [Slot.layer, accountSlot, Layer.answer, has_eq, kept,
    Option.isSome_none, Bool.false_eq_true, if_false]
  cases held : ctx.top.accountMap.get addr with
  | some acc =>
    rw [held] at stored
    exact (Database.account_of_encoded _ stored).1
  | none =>
    rw [held] at stored
    simp only [Slot.result, Database.account, stored]

theorem Context.stored_hasAccount :
    (Database.written ctx.top db).hasAccount addr = ctx.hasAccount addr := by
  have stored := Database.get_written_account ctx.top db kept
  rw [hasAccount_eq_lookup, single, List.map_cons, List.map_nil, lookup, lookup,
    ContextCache.hasAccount_eq sound.agrees (atop ▸ Database.toLoader_coherent status db), atop,
    Database.toLoader]
  simp only [Slot.layer, accountSlot, Layer.answer, has_eq, kept,
    Option.isSome_none, Bool.false_eq_true, if_false]
  cases held : ctx.top.accountMap.get addr with
  | some acc =>
    rw [held] at stored
    exact (Database.account_of_encoded _ stored).2
  | none =>
    rw [held] at stored
    simp only [Answer.orElse, Database.hasAccount, stored]

theorem Context.stored_accountData (pid : UInt8) (name : Bytes) :
    (Database.written ctx.top db).accountData addr pid name =
      (ctx.accountData addr pid name).1 := by
  rw [Database.accountData, Database.get_written_data ctx.top db pid name kept, accountData_fst,
    answer_single single, (ContextCache.accountData_spec sound.agrees addr pid name).1,
    atop, Database.toLoader]
  simp only [Slot.layer, accountDataSlot, Layer.answer, has_eq]
  cases ctx.top.deletedAccountDataMap.get (accountDataKey addr pid name) with
  | some mark => simp [Slot.result]
  | none =>
    cases ctx.top.accountDataMap.get (accountDataKey addr pid name) <;>
      simp [Slot.result, Database.accountData]

end Single

/-- The state of a context with a single layer is what the database holds after that
layer is applied. -/
theorem Context.storesReads_single {status : Database.Status} (sound : ctx.Sound)
    (atop : ctx.loader = db.toLoader status) (single : ctx.parents = []) :
    ctx.StoresReads db ctx.top := by
  refine ⟨written ctx.top db, ?_, fun addr alive => ?_⟩
  · rw [applyContextData, utxo_ids_match sound (atop ▸ toLoader_coherent status db)]
    rfl
  · have kept := not_deleted_single single alive
    exact ⟨stored_account sound atop single kept, stored_hasAccount sound atop single kept,
      stored_accountData sound atop single kept⟩

/-- `Commit(sn)` cannot be noticed: every read answers as before it, and if it leaves
one layer over a database, that layer makes the database answer as the context did
before it. With more layers left, the top alone is not the state of the context. -/
def Context.CommitTransparent (sn : Nat) (ctx : Context Acc Ev) : Prop :=
  ctx.SameReads (ctx.commit sn) ∧
    ∀ (db : Database) (status : Database.Status), ctx.loader = db.toLoader status →
      (ctx.commit sn).parents = [] → ctx.StoresReads db (ctx.commit sn).top

theorem Context.commitTransparent_of_sameReads {sn : Nat} (sound : ctx.Sound)
    (same : ctx.SameReads (ctx.commit sn)) : ctx.CommitTransparent sn := by
  refine ⟨same, fun db status atop single => ?_⟩
  obtain ⟨stored, applied, reads⟩ := storesReads_single (sound.commit sn) atop single
  refine ⟨stored, applied, fun addr alive => ?_⟩
  obtain ⟨account, hasAccount, accountData⟩ := reads addr (same.account addr ▸ alive)
  refine ⟨account.trans (same.account addr), hasAccount.trans (same.hasAccount addr), ?_⟩
  exact fun pid name => (accountData pid name).trans (same.accountData addr pid name)

/-- For every loader, every sequence of operations before a snapshot and every
sequence after it, the commit of that snapshot cannot be noticed exactly when it
shadows nothing. -/
theorem commit_transparent_iff_nothing_shadowed [Event Ev] (loader : Loader Acc)
    (earlier later : List (Op Acc Ev)) :
    let start := (Op.run earlier (Context.new loader)).snapshot
    let ctx := Op.run later start.2
    ctx.CommitTransparent start.1 ↔ ctx.NothingShadowed start.1 := by
  intro start ctx
  have sound : ctx.Sound :=
    (Op.run_keeps (Op.run_keeps (Context.Sound.new loader) earlier).sound.snapshot later).sound
  constructor
  · exact fun transparent => Context.nothing_shadowed_of_sameReads sound transparent.1
  · exact fun clear => Context.commitTransparent_of_sameReads sound
      (Context.sameReads_of_nothing_shadowed clear)

end Store

open Instances

def emptyLoader : Loader SingleAccount :=
  toLoader
    { chainID := 0, name := [], version := 0, targetHeight := 1, lastHash := [],
      lastTimestamp := 0, timeSlotMap := .empty } .empty

/-- A key is set to empty, and inside a snapshot to a value again. The value is read
before the commit and gone after it. -/
theorem reset_process_data_lost_by_commit :
    let start := (Op.run [.setProcessData 1 [0] []]
      (Context.new emptyLoader : Context SingleAccount PlainEvent)).snapshot
    let ctx := Op.run [.setProcessData 1 [0] [7]] start.2
    ¬ctx.CommitTransparent start.1 := by
  intro start ctx transparent
  have read := transparent.1.processData 1 [0]
  have before : (ctx.processData 1 [0]).1 = [7] := by decide +kernel
  have after : ((ctx.commit start.1).processData 1 [0]).1 = [] := by decide +kernel
  rw [before, after] at read
  cases read

end Fleta
