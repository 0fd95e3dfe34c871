import Fleta.BlockReplay
import Fleta.ContextUndo

/-!
# Rejected transactions of a block creator

`UnsafeAddTx` opens a snapshot and reverts it when `Validate` or `Execute` fails or the
generator is gone. It does not when the time slot is used: the snapshot stays open, and the
block can not be finalized any more. Every other rejection leaves the creator as it was, but
for the cache of its context.
-/

namespace Fleta

open Context Chain Transaction

variable {Acc Ev Tx : Type}

namespace Context

theorem read_cache_frame {Value Result Part : Type} (part : ContextCache Acc → Part)
    (slot : Slot Acc Ev Value Result) (below : ContextCache Acc → Result × ContextCache Acc)
    (frame : ∀ cache, part (below cache).2 = part cache) (ctx : Context Acc Ev) :
    part (ctx.read slot below).2.cache = part ctx.cache := by
  have layers : ∀ (parents : List (ContextData Acc Ev)) (ctd : ContextData Acc Ev),
      part (ContextData.read slot below ctd parents ctx.cache).2.2.2 = part ctx.cache := by
    intro parents
    induction parents with
    | nil =>
      intro ctd
      rw [ContextData.read]
      split
      · rfl
      split
      · rfl
      · exact frame ctx.cache
    | cons parent rest ih =>
      intro ctd
      rw [ContextData.read]
      split
      · rfl
      split
      · rfl
      · exact ih parent
  exact layers ctx.parents ctx.top

variable (addr : Address)

theorem account_utxoMap (ctx : Context Acc Ev) :
    (ctx.account addr).2.cache.utxoMap = ctx.cache.utxoMap :=
  read_cache_frame (·.utxoMap) _ _ (fun _ => rfl) ctx.touch

theorem insertAccount_utxoMap [Account Acc] [Base58] (tolerated : Err → Bool) (acc : Acc)
    (ctx : Context Acc Ev) :
    (ctx.insertAccount tolerated acc).2.cache.utxoMap = ctx.cache.utxoMap := by
  rcases insertAccount_outcome tolerated acc ctx with ⟨err, failed⟩ | ⟨_, inserted⟩
  · rw [failed]
    rfl
  · rw [inserted]
    rfl

theorem deleteAccount_utxoMap [Account Acc] (acc : Acc) (ctx : Context Acc Ev) :
    (ctx.deleteAccount acc).2.cache.utxoMap = ctx.cache.utxoMap := by
  have read := account_utxoMap (Account.address acc) ctx
  rcases deleteAccount_outcome acc ctx with ⟨err, _, failed⟩ | ⟨found, _, deleted⟩
  · rw [failed]
    exact read
  · rw [deleted]
    exact read

theorem updateAccount_utxoMap (change : Acc → Acc) (ctx : Context Acc Ev) :
    (ctx.updateAccount addr change).2.cache.utxoMap = ctx.cache.utxoMap := by
  have read := account_utxoMap addr ctx
  rcases updateAccount_outcome addr change ctx with ⟨err, _, failed⟩ | ⟨found, _, updated⟩
  · rw [failed]
    exact read
  · rw [updated]
    exact read

theorem useTimeSlot_utxoMap (slot : UInt32) (key : Bytes) (ctx : Context Acc Ev) :
    (ctx.useTimeSlot slot key).2.cache.utxoMap = ctx.cache.utxoMap := by
  unfold useTimeSlot
  split
  · rfl
  · exact ContextCache.hasTimeSlot_utxoMap _ _ _ _

theorem settle_cache (sn : Nat) (result : Except Err Unit) (ctx : Context Acc Ev) :
    (ctx.settle sn result).cache = ctx.cache := by
  cases result <;> rfl

end Context

theorem Op.run_unhashed [Account Acc] [Event Ev] [Base58] {ctx : Context Acc Ev} (sound : ctx.Sound)
    (unhashed : ctx.isLatestHash = false) (ops : List (Op Acc Ev)) :
    (Op.run ops ctx).isLatestHash = false := by
  induction ops generalizing ctx with
  | nil => exact unhashed
  | cons op rest ih =>
    refine ih (op.apply_keeps sound).sound ?_
    rcases op.apply_cases sound with
      steps | ⟨cache, slots, _, _, same⟩ | rfl | ⟨sn, rfl⟩ | ⟨sn, rfl⟩
    · exact steps.unhashed unhashed
    · rw [same]
      exact unhashed
    · rfl
    · rfl
    · rfl

theorem Prog.run_utxoMap [Account Acc] [Event Ev] [Base58] (prog : Prog Acc Ev)
    (ctx : Context Acc Ev) : (prog.run ctx).2.cache.utxoMap = ctx.cache.utxoMap := by
  induction prog generalizing ctx with
  | done result => rfl
  | env next ih => exact ih _ ctx
  | account addr next ih => exact (ih _ _).trans (account_utxoMap addr ctx)
  | updateAccount addr change next ih =>
    exact (ih _ _).trans (updateAccount_utxoMap addr change ctx)
  | hasAccount addr next ih => exact ih _ ctx
  | addressByName name next ih =>
    exact (ih _ _).trans (read_cache_frame (·.utxoMap) _ _ (fun _ => rfl) ctx)
  | hasAccountName name next ih => exact ih _ ctx
  | createAccount acc next ih => exact (ih _ _).trans (insertAccount_utxoMap _ acc ctx)
  | createAccountIgnoreDelete acc next ih =>
    exact (ih _ _).trans (insertAccount_utxoMap _ acc ctx)
  | deleteAccount acc next ih => exact (ih _ _).trans (deleteAccount_utxoMap acc ctx)
  | accountData addr pid name next ih =>
    exact (ih _ _).trans (read_cache_frame (·.utxoMap) _ _ (fun _ => rfl) ctx)
  | setAccountData addr pid name value next ih => exact ih _
  | processData pid name next ih =>
    exact (ih _ _).trans (read_cache_frame (·.utxoMap) _ _ (fun _ => rfl) ctx)
  | setProcessData pid name value next ih => exact ih _
  | emitEvent event next ih => exact ih _
  | within body next bodyIh nextIh =>
    refine (nextIh _ _).trans ?_
    rw [settle_cache]
    exact bodyIh _

namespace Chain

variable [Account Acc] [Event Ev] [Base58] [Transaction Acc Ev Tx]

theorem executeTransaction_utxoMap (generator : Address) (pid : UInt8) (slot : UInt32)
    (txHash : Hash256) (tx : Tx) (signers : List PublicHash) (index : UInt16)
    (ctx : Context Acc Ev) :
    (executeTransaction generator pid slot txHash tx signers index ctx).2.cache.utxoMap =
      ctx.cache.utxoMap := by
  have used := ctx.snapshot.2.useTimeSlot_utxoMap slot txHash
  unfold executeTransaction
  dsimp only
  split
  · rename_i failed
    rw [failed] at used
    exact used
  · rename_i opened passed
    rw [passed] at used
    refine .trans ?_ used
    rw [settle_cache]
    have validated := (validate tx pid signers).run_utxoMap opened
    unfold runTransaction
    split
    · rename_i refused
      rw [refused] at validated
      exact validated
    · rename_i mid accepted
      rw [accepted] at validated
      have executed := (execute tx pid index).run_utxoMap mid
      split
      · rename_i refused
        rw [refused] at executed
        exact executed.trans validated
      · rename_i accepted
        rw [accepted] at executed
        exact executed.trans validated

end Chain

namespace BlockCreator

structure Twin (left right : BlockCreator Acc Ev Tx) : Prop where
  ctx : left.ctx.Twin right.ctx
  txHashes : right.txHashes = left.txHashes
  b : right.b = left.b

variable [Account Acc] [Event Ev] [Base58] [Transaction Acc Ev Tx] {cn : Chain Acc Ev Tx}
  {left right : BlockCreator Acc Ev Tx}

theorem Twin.unsafeAddTx (twin : left.Twin right)
    (call : TxCall Tx) : (left.unsafeAddTx cn call).2.Twin (right.unsafeAddTx cn call).2 := by
  have executed := executeTransaction_twin twin.ctx call.generator (processOf call.t)
    (toTimeSlot (timestamp call.tx)) call.txHash call.tx call.signers
    (UInt16.ofNat left.b.transactions.length)
  unfold BlockCreator.unsafeAddTx
  dsimp only
  rw [twin.b]
  split
  · exact twin
  split
  · exact twin
  revert executed
  generalize executeTransaction call.generator (processOf call.t)
    (toTimeSlot (timestamp call.tx)) call.txHash call.tx call.signers
    (UInt16.ofNat left.b.transactions.length) left.ctx = one
  generalize executeTransaction call.generator (processOf call.t)
    (toTimeSlot (timestamp call.tx)) call.txHash call.tx call.signers
    (UInt16.ofNat left.b.transactions.length) right.ctx = other
  obtain ⟨result, leftCtx⟩ := one
  obtain ⟨otherResult, rightCtx⟩ := other
  rintro ⟨same, after⟩
  cases same
  cases result with
  | error err => exact ⟨after, twin.txHashes, rfl⟩
  | ok _ =>
    refine ⟨after, ?_, ?_⟩
    · change right.txHashes ++ _ = _
      rw [twin.txHashes]
      rfl
    · change (right.accept call rightCtx).b = (left.accept call leftCtx).b
      rw [accept, accept, twin.b]

theorem Twin.addTxs (twin : left.Twin right)
    (calls : List (TxCall Tx)) : (left.addTxs cn calls).Twin (right.addTxs cn calls) := by
  induction calls generalizing left right with
  | nil => exact twin
  | cons call rest ih => exact ih (twin.unsafeAddTx call)

variable [HashFunction] [Msgpack] [AccountCodec Acc] [TxOutCodec] [EventCodec Ev]

omit [Transaction Acc Ev Tx] in
theorem Twin.finalize (twin : left.Twin right) : right.finalize cn = left.finalize cn := by
  have size : right.ctx.stackSize = left.ctx.stackSize := by
    rw [twin.ctx.same]
    rfl
  unfold BlockCreator.finalize
  rw [twin.txHashes, twin.b]
  cases buildLevelRoot left.txHashes with
  | error err => rfl
  | ok root =>
    dsimp only
    rw [size]
    split
    · rfl
    · obtain ⟨result, after⟩ := runHooks_twin (cn.hooks (·.afterExecuteTransactions
        ({ left.b with header := { left.b.header with levelRootHash := root } } : Block Tx).view))
        twin.ctx
      revert result after
      generalize runHooks _ left.ctx = one
      generalize runHooks _ right.ctx = other
      obtain ⟨result, leftCtx⟩ := one
      obtain ⟨otherResult, rightCtx⟩ := other
      intro same after
      cases same
      cases result with
      | error err => rfl
      | ok _ =>
        dsimp only
        rw [after.hash]

/-- The creators over a loader that have not been finalized. -/
inductive Made (cn : Chain Acc Ev Tx) (loader : Loader Acc) : BlockCreator Acc Ev Tx → Prop
  | new (earlier : List (Op Acc Ev)) (generator : Address) (consensusData : Bytes)
      (timestamp : UInt64) :
      Made cn loader (.new (Op.run earlier (Context.new loader)) generator consensusData timestamp)
  | init {bc : BlockCreator Acc Ev Tx} (made : Made cn loader bc) : Made cn loader (bc.init cn).2
  | addTx {bc : BlockCreator Acc Ev Tx} (made : Made cn loader bc) (call : TxCall Tx) :
      Made cn loader (bc.unsafeAddTx cn call).2

structure Usable (loader : Loader Acc) (bc : BlockCreator Acc Ev Tx) : Prop where
  sound : bc.ctx.Sound
  loader : bc.ctx.loader = loader
  unhashed : bc.ctx.isLatestHash = false

/-- Nothing that the creator does later or is asked for shows a difference. -/
structure Unchanged (cn : Chain Acc Ev Tx) (before after : BlockCreator Acc Ev Tx) : Prop where
  reads : before.ctx.Undone after.ctx
  utxo : ∀ id, (after.ctx.utxo id).1 = (before.ctx.utxo id).1
  hasUTXO : ∀ id, after.ctx.hasUTXO id = before.ctx.hasUTXO id
  txHashes : after.txHashes = before.txHashes
  b : after.b = before.b
  finalize : ∀ calls, (after.addTxs cn calls).finalize cn = (before.addTxs cn calls).finalize cn

section Outcome

omit [HashFunction] [Msgpack] [AccountCodec Acc] [TxOutCodec] [EventCodec Ev]

variable {bc : BlockCreator Acc Ev Tx} {loader : Loader Acc}

/-- How `UnsafeAddTx` ends: refused before the snapshot, refused as used, refused and
reverted, or accepted. -/
theorem unsafeAddTx_outcome (cn : Chain Acc Ev Tx) (sound : bc.ctx.Sound) (call : TxCall Tx) :
    let slot := toTimeSlot (timestamp call.tx)
    (¬Known cn bc.b.header.timestamp bc.ctx.loader call ∧
        ∃ err, bc.unsafeAddTx cn call = (.error err, bc)) ∨
      (Known cn bc.b.header.timestamp bc.ctx.loader call ∧ ∃ cache, cache.Agrees bc.ctx.loader ∧
        bc.unsafeAddTx cn call =
          (.error .usedTimeSlot, { bc with ctx := bc.ctx.opened slot call.txHash cache })) ∨
      (¬Known cn bc.b.header.timestamp bc.ctx.loader call ∧ ∃ err cache,
        cache.Agrees bc.ctx.loader ∧ cache.utxoMap = bc.ctx.cache.utxoMap ∧
        bc.unsafeAddTx cn call = (.error err, { bc with ctx := { bc.ctx.touch with cache := cache } })) ∨
      ∃ after, bc.ctx.Committed slot call.txHash after ∧
        bc.unsafeAddTx cn call = (.ok (), bc.accept call after) := by
  intro slot
  unfold unsafeAddTx
  by_cases process : cn.hasProcess (processOf call.t) = true
  swap
  · left
    refine ⟨fun known => process known.1, .notExistProcess, ?_⟩
    rw [Bool.not_eq_true] at process
    rw [process]
    rfl
  by_cases outside : outsideWindow (toTimeSlot bc.b.header.timestamp) slot = true
  · left
    refine ⟨fun known => ?_, .invalidTransactionTimeSlot, ?_⟩
    · have inside := known.2.1
      rw [outside] at inside
      cases inside
    · rw [process, Bool.not_true, if_neg Bool.false_ne_true, if_pos outside]
  right
  rw [process, Bool.not_true, if_neg Bool.false_ne_true, if_neg outside]
  obtain ⟨cache, agrees, used⟩ := useTimeSlot_snapshot sound slot call.txHash
  by_cases known : bc.ctx.loader.hasTimeSlot slot call.txHash = true
  · left
    refine ⟨⟨process, Bool.eq_false_iff.mpr outside, known⟩, cache, agrees, ?_⟩
    unfold executeTransaction
    dsimp only
    rw [used, if_pos known]
  · right
    have outcome := executeTransaction_outcome sound call.generator (processOf call.t) slot
      call.txHash call.tx call.signers (UInt16.ofNat bc.b.transactions.length)
    have utxos := executeTransaction_utxoMap call.generator (processOf call.t) slot
      call.txHash call.tx call.signers (UInt16.ofNat bc.b.transactions.length) bc.ctx
    generalize executeTransaction call.generator (processOf call.t) slot
      call.txHash call.tx call.signers (UInt16.ofNat bc.b.transactions.length) bc.ctx = ended
      at outcome utxos ⊢
    obtain ⟨result, after⟩ := ended
    rcases outcome with ⟨used, _⟩ | ⟨err, cache, failed, agrees, restored⟩ | ⟨_, passed, committed⟩
    · exact absurd used known
    · left
      subst failed
      subst restored
      exact ⟨fun isKnown => known isKnown.2.2, err, cache, agrees, utxos, rfl⟩
    · right
      subst passed
      exact ⟨after, committed, rfl⟩

theorem Usable.unsafeAddTx (usable : bc.Usable loader) (call : TxCall Tx) :
    (bc.unsafeAddTx cn call).2.Usable loader := by
  rcases unsafeAddTx_outcome cn usable.sound call with ⟨_, err, ended⟩ |
    ⟨_, cache, agrees, ended⟩ | ⟨_, err, cache, agrees, _, ended⟩ | ⟨after, committed, ended⟩
  · rw [ended]
    exact usable
  · rw [ended]
    exact ⟨usable.sound.opened _ _ agrees, usable.loader, rfl⟩
  · rw [ended]
    exact ⟨{ usable.sound with agrees := agrees }, usable.loader, rfl⟩
  · rw [ended]
    exact ⟨committed.sound, committed.loader.trans usable.loader, committed.unhashed⟩

theorem Made.usable (made : Made cn loader bc) : bc.Usable loader := by
  induction made with
  | new earlier generator consensusData timestamp =>
    have kept := Op.run_keeps (Context.Sound.new loader : (Context.new loader : Context Acc Ev).Sound)
      earlier
    exact ⟨kept.sound, kept.loader, Op.run_unhashed (Context.Sound.new loader) rfl earlier⟩
  | init made ih =>
    have steps := runHooks_steps (cn.hooks (·.beforeExecuteTransactions)) ih.sound
    exact ⟨steps.sound, steps.loader.trans ih.loader, steps.unhashed ih.unhashed⟩
  | addTx made call ih => exact ih.unsafeAddTx call

end Outcome

theorem unchanged_of_agrees {bc : BlockCreator Acc Ev Tx} {loader : Loader Acc}
    (coherent : loader.Coherent) (names : loader.NamesCoherent) (usable : bc.Usable loader)
    {cache : ContextCache Acc} (agrees : cache.Agrees bc.ctx.loader)
    (utxos : cache.utxoMap = bc.ctx.cache.utxoMap) :
    bc.Unchanged cn { bc with ctx := { bc.ctx.touch with cache := cache } } := by
  have untouched : bc.ctx.touch = bc.ctx := by
    rw [touch, ← usable.unhashed]
  have after : ({ bc.ctx.touch with cache := cache } : Context Acc Ev).Sound :=
    { usable.sound with agrees := agrees }
  have twin : bc.Twin { bc with ctx := { bc.ctx.touch with cache := cache } } := by
    refine ⟨⟨usable.sound, after, usable.loader ▸ coherent, usable.loader ▸ names, ?_⟩, rfl, rfl⟩
    rw [untouched]
  exact {
    reads := undone_of_agrees usable.sound (usable.loader ▸ coherent.hasAccount)
      (usable.loader ▸ names) agrees
    utxo := fun id => (after.utxo_fst id).trans (usable.sound.utxo_fst id).symm
    hasUTXO := fun id => by
      unfold hasUTXO ContextCache.hasUTXO
      rw [utxos]
      rfl
    txHashes := rfl
    b := rfl
    finalize := fun calls => (twin.addTxs calls).finalize }

/-- A rejected transaction leaves the creator as it was exactly if it was not rejected as used
in the chain. -/
theorem rejection_unchanged_iff {loader : Loader Acc} (coherent : loader.Coherent)
    (names : loader.NamesCoherent) {bc after : BlockCreator Acc Ev Tx} (made : Made cn loader bc)
    {call : TxCall Tx} {err : Err} (rejected : bc.unsafeAddTx cn call = (.error err, after)) :
    bc.Unchanged cn after ↔ ¬Known cn bc.b.header.timestamp loader call := by
  have usable := made.usable
  have outcome := unsafeAddTx_outcome cn usable.sound call
  rw [rejected] at outcome
  rw [← usable.loader]
  rcases outcome with ⟨unknown, _, ended⟩ | ⟨known, cache, agrees, ended⟩ |
    ⟨unknown, _, cache, agrees, utxos, ended⟩ | ⟨_, _, ended⟩
  · cases ended
    exact ⟨fun _ => unknown, fun _ =>
      ⟨.refl bc.ctx, fun _ => rfl, fun _ => rfl, rfl, rfl, fun _ => rfl⟩⟩
  · cases ended
    refine ⟨fun unchanged => ?_, fun unknown => absurd known unknown⟩
    have size : bc.ctx.stackSize + 1 = bc.ctx.stackSize := unchanged.reads.stackSize
    omega
  · cases ended
    exact ⟨fun _ => unknown, fun _ => unchanged_of_agrees coherent names usable agrees utxos⟩
  · cases ended

end BlockCreator

open Instances

def earlyCall (generator : Address) : TxCall SetData :=
  let tx : SetData := ⟨2000000000, [1], [2]⟩
  ⟨generator, idleType, hashTransactionByType 1 idleType tx, tx, [], []⟩

def secondSlot (status : Database.Status) : BlockCreator SingleAccount PlainEvent SetData :=
  .new (new (someDatabase.toLoader status)) someAddress [] 7000000000

/-- The generator of the call has no account. -/
theorem missing_generator_unchanged :
    let bc := secondSlot someStatus
    let call := earlyCall (Address.new 0 9 0)
    bc.Unchanged idleChain (bc.unsafeAddTx idleChain call).2 ↔
      ¬BlockCreator.Known idleChain bc.b.header.timestamp (someDatabase.toLoader someStatus) call := by
  intro bc call
  have refused : (bc.unsafeAddTx idleChain call).1 = .error .cannotDeleteGeneratorAccount := by
    decide +kernel
  exact BlockCreator.rejection_unchanged_iff (Database.toLoader_coherent _ _)
    (BlockCreator.someDatabase_wellNamed.names someStatus) (.new [] someAddress [] 7000000000)
    (Prod.ext refused rfl)

def usedStatus : Database.Status :=
  { someStatus with
    timeSlotMap := TimeSlotMap.putKey .empty 0 (earlyCall someAddress).txHash }

/-- The snapshot of a used transaction stays open, and the block can not be finalized. -/
theorem used_transaction_leaves_snapshot :
    let bc := secondSlot usedStatus
    (bc.unsafeAddTx idleChain (earlyCall someAddress)).1 = .error .usedTimeSlot ∧
      (bc.unsafeAddTx idleChain (earlyCall someAddress)).2.ctx.stackSize = 2 ∧
      ¬bc.Unchanged idleChain (bc.unsafeAddTx idleChain (earlyCall someAddress)).2 := by
  intro bc
  have size : (bc.unsafeAddTx idleChain (earlyCall someAddress)).2.ctx.stackSize = 2 := by
    decide +kernel
  refine ⟨by decide +kernel, size, fun unchanged => ?_⟩
  have same := unchanged.reads.stackSize
  rw [size] at same
  cases same

end Fleta
