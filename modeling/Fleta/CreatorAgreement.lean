import Fleta.AccountNames

/-!
# The creator and the validator of a block agree

The creator of a block runs attempts that fail between the transactions it keeps; the
validator runs the kept ones only. After every call of `UnsafeAddTx` the two contexts
are twins: they differ in cached answers of the loader, which nothing can observe. So
the closing hooks do the same on both sides and the context hashes are equal.
-/

namespace Fleta

open Chain TxCall Transaction

variable {Acc Ev Tx : Type}

def TxCall.entry (call : TxCall Tx) : Chain.TxEntry Tx := ⟨call.t, call.tx, call.txHash, call.signers⟩

namespace BlockCreator

section Execute

variable [Account Acc] [Event Ev] [Base58] [Transaction Acc Ev Tx] (cn : Chain Acc Ev Tx)

/-- What the creator has built so far is what a validator that started from `start`
would accept: it has run exactly the accepted calls and stands at a twin context. -/
structure Agreed (start : Context Acc Ev) (generator : Address) (header : Header)
    (bc : BlockCreator Acc Ev Tx) (accepted : List (TxCall Tx)) : Prop where
  header_eq : bc.b.header = header
  types : bc.b.transactionTypes = accepted.map t
  transactions : bc.b.transactions = accepted.map tx
  signatures : bc.b.transactionSignatures = accepted.map sigs
  txHashes : bc.txHashes = header.prevHash :: accepted.map txHash
  single : bc.ctx.parents = []
  unhashed : bc.ctx.isLatestHash = false
  replayed : ∃ ctx, cn.executeTransactions generator (toTimeSlot header.timestamp)
      (accepted.map entry) 0 start = (.ok (), ctx) ∧ bc.ctx.Twin ctx

variable {cn} {start : Context Acc Ev} {generator : Address} {header : Header}
  {bc : BlockCreator Acc Ev Tx} {accepted : List (TxCall Tx)}

/-- A call leaves the agreement intact, possibly with one more accepted transaction, or
it leaves the snapshot of a used time slot open. -/
theorem Agreed.addTx (agreed : Agreed cn start generator header bc accepted) (call : TxCall Tx)
    (own : call.generator = generator) :
    Agreed cn start generator header (bc.unsafeAddTx cn call).2 accepted ∨
      Agreed cn start generator header (bc.unsafeAddTx cn call).2 (accepted ++ [call]) ∨
      ((bc.unsafeAddTx cn call).2.ctx.Sound ∧ (bc.unsafeAddTx cn call).2.ctx.parents ≠ []) := by
  obtain ⟨ctx, ran, twin⟩ := agreed.replayed
  unfold unsafeAddTx
  dsimp only
  split
  · exact .inl agreed
  rename_i known
  split
  · exact .inl agreed
  rename_i inside
  have outcome := executeTransaction_outcome twin.leftSound call.generator
    (processOf call.t) (toTimeSlot (timestamp call.tx)) call.txHash call.tx call.signers
    (UInt16.ofNat bc.b.transactions.length)
  have both := executeTransaction_twin twin call.generator
    (processOf call.t) (toTimeSlot (timestamp call.tx)) call.txHash call.tx call.signers
    (UInt16.ofNat bc.b.transactions.length)
  rcases attempt : executeTransaction call.generator (processOf call.t)
    (toTimeSlot (timestamp call.tx)) call.txHash call.tx call.signers
    (UInt16.ofNat bc.b.transactions.length) bc.ctx with ⟨result, after⟩
  rw [attempt] at outcome both
  dsimp only at outcome both
  rcases outcome with ⟨_, failed, sound, deeper⟩ | ⟨err, cache, failed, agrees, restored⟩ |
    ⟨_, passed, committed⟩
  · -- the slot was used before: the snapshot stays open
    rw [failed]
    refine .inr (.inr ⟨sound, fun empty => ?_⟩)
    rw [empty] at deeper
    simp at deeper
  · -- the attempt was reverted: only the cache can differ
    rw [failed]
    left
    have fresh : bc.ctx.touch = bc.ctx := by
      simp only [Context.touch, ← agreed.unhashed]
    rw [fresh] at restored
    rw [restored]
    exact { agreed with replayed := ⟨ctx, ran, twin.recache agrees⟩ }
  · -- the transaction is accepted, and the validator runs it as its next one
    rw [passed] at both ⊢
    obtain ⟨sameResult, sameAfter⟩ := both
    rcases replay : executeTransaction call.generator (processOf call.t)
      (toTimeSlot (timestamp call.tx)) call.txHash call.tx call.signers
      (UInt16.ofNat bc.b.transactions.length) ctx with ⟨replayResult, replayed⟩
    rw [replay] at sameResult sameAfter
    subst sameResult
    right
    left
    refine ⟨agreed.header_eq, ?_, ?_, ?_, ?_, committed.parents.trans agreed.single,
      committed.unhashed, replayed, ?_, sameAfter⟩
    · simp [accept, agreed.types]
    · simp [accept, agreed.transactions]
    · simp [accept, agreed.signatures]
    · simp [accept, agreed.txHashes]
    · rw [List.map_append, executeTransactions_append]
      refine ⟨ctx, ran, ?_⟩
      rw [List.map_cons, List.map_nil, executeTransactions_cons]
      refine ⟨by simpa [agreed.header_eq, entry] using inside,
        by simpa [entry] using known, replayed, ?_, rfl⟩
      have index : bc.b.transactions.length = 0 + (accepted.map entry).length := by
        simp [agreed.transactions]
      rw [← index, ← own]
      exact replay

theorem dirty_addTx (cn : Chain Acc Ev Tx) (sound : bc.ctx.Sound) (dirty : bc.ctx.parents ≠ [])
    (call : TxCall Tx) :
    (bc.unsafeAddTx cn call).2.ctx.Sound ∧ (bc.unsafeAddTx cn call).2.ctx.parents ≠ [] := by
  unfold unsafeAddTx
  dsimp only
  split
  · exact ⟨sound, dirty⟩
  split
  · exact ⟨sound, dirty⟩
  have outcome := executeTransaction_outcome sound call.generator
    (processOf call.t) (toTimeSlot (timestamp call.tx)) call.txHash call.tx call.signers
    (UInt16.ofNat bc.b.transactions.length)
  rcases attempt : executeTransaction call.generator (processOf call.t)
    (toTimeSlot (timestamp call.tx)) call.txHash call.tx call.signers
    (UInt16.ofNat bc.b.transactions.length) bc.ctx with ⟨result, after⟩
  rw [attempt] at outcome
  dsimp only at outcome
  rcases outcome with ⟨_, failed, stillSound, deeper⟩ | ⟨err, cache, failed, agrees, restored⟩ |
    ⟨_, passed, committed⟩
  · rw [failed]
    refine ⟨stillSound, fun empty => ?_⟩
    rw [empty] at deeper
    simp at deeper
  · rw [failed, restored]
    exact ⟨{ sound with agrees := agrees }, dirty⟩
  · rw [passed]
    exact ⟨committed.sound, committed.parents ▸ dirty⟩

theorem dirty_addTxs (sound : bc.ctx.Sound) (dirty : bc.ctx.parents ≠ [])
    (calls : List (TxCall Tx)) : (bc.addTxs cn calls).ctx.parents ≠ [] := by
  induction calls generalizing bc with
  | nil => exact dirty
  | cons call calls ih =>
    obtain ⟨stillSound, stillDirty⟩ := dirty_addTx cn sound dirty call
    exact ih stillSound stillDirty

theorem Agreed.addTxs (agreed : Agreed cn start generator header bc accepted)
    (calls : List (TxCall Tx)) (own : ∀ call ∈ calls, call.generator = generator) :
    (∃ more, Agreed cn start generator header (bc.addTxs cn calls) (accepted ++ more) ∧
        ∀ call ∈ more, call ∈ calls) ∨
      (bc.addTxs cn calls).ctx.parents ≠ [] := by
  induction calls generalizing bc accepted with
  | nil => exact .inl ⟨[], by simpa [BlockCreator.addTxs] using agreed, by simp⟩
  | cons call calls ih =>
    have rest : ∀ other ∈ calls, other.generator = generator :=
      fun other member => own other (by simp [member])
    rcases agreed.addTx call (own call (by simp)) with kept | added | ⟨sound, dirty⟩
    · rcases ih kept rest with ⟨more, after, listed⟩ | dirty
      · exact .inl ⟨more, after, fun other member => by simp [listed other member]⟩
      · exact .inr dirty
    · rcases ih added rest with ⟨more, after, listed⟩ | dirty
      · rw [List.append_assoc] at after
        refine .inl ⟨call :: more, after, fun other member => ?_⟩
        rcases List.mem_cons.mp member with head | tail
        · simp [head]
        · simp [listed other tail]
      · exact .inr dirty
    · exact .inr (dirty_addTxs sound dirty calls)

end Execute

section Replay

variable [HashFunction] [Msgpack] [Transaction Acc Ev Tx] (cn : Chain Acc Ev Tx)

/-- The arguments of a call are those a validator computes from its transaction and
signatures: the canonical hash, the recovered signers and the generator of the block. -/
structure Canonical (chainID : UInt8) (generator : Address) (call : TxCall Tx) : Prop where
  txHash : call.txHash = hashTransactionByType chainID call.t call.tx
  signers : call.sigs.mapM (cn.recoverPublicHash call.txHash) = .ok call.signers
  generator : call.generator = generator

/-- What a signer provider remembers is what the signatures recover to. -/
def Truthful (sp : Option SignerProvider) : Prop :=
  ∀ provider, sp = some provider → ∀ txHash sigs signers,
    provider txHash = (some sigs, some signers) →
      sigs.mapM (cn.recoverPublicHash txHash) = .ok signers

variable {cn} {sp : Option SignerProvider}

omit [Msgpack] [HashFunction] [Transaction Acc Ev Tx] in
theorem signersOf_truthful (truthful : Truthful cn sp) (txHash : Hash256) (sigs : List Signature) :
    cn.signersOf sp txHash sigs = sigs.mapM (cn.recoverPublicHash txHash) := by
  unfold signersOf
  cases sp with
  | none => rfl
  | some provider =>
    rcases remembered : provider txHash with ⟨known, knownSigners⟩
    dsimp only
    rw [remembered]
    cases known with
    | none => rfl
    | some knownSigs =>
      dsimp only
      by_cases same : knownSigs = sigs
      · subst same
        rw [if_pos rfl]
        cases knownSigners with
        | none => rfl
        | some signers => exact (truthful provider rfl txHash knownSigs signers remembered).symm
      · rw [if_neg same]

omit [Msgpack] [HashFunction] in
private theorem mapM_ok {Item Value Result : Type} (items : List Item) (value : Item → Value)
    (compute : Value → Except Err Result) (result : Item → Result)
    (computes : ∀ item ∈ items, compute (value item) = .ok (result item)) :
    (items.map value).mapM compute = .ok (items.map result) := by
  induction items with
  | nil => rfl
  | cons item items ih =>
    rw [List.map_cons, List.mapM_cons, computes item (by simp),
      ih fun other member => computes other (by simp [member])]
    rfl

theorem validateTransactionSignatures_accepted
    (truthful : Truthful cn sp) {chainID : UInt8} {generator : Address}
    {accepted : List (TxCall Tx)} (canonical : ∀ call ∈ accepted, Canonical cn chainID generator call)
    {b : Block Tx} (types : b.transactionTypes = accepted.map t)
    (transactions : b.transactions = accepted.map tx)
    (signatures : b.transactionSignatures = accepted.map sigs)
    (root : buildLevelRoot (b.header.prevHash :: accepted.map txHash) =
      .ok b.header.levelRootHash) :
    cn.validateTransactionSignatures chainID b sp = .ok (accepted.map entry) := by
  have zipped : zipTransactions b = accepted.map fun call => (call.t, call.tx, call.sigs) := by
    rw [zipTransactions, types, transactions, signatures, List.zip_map', List.zip_map']
  have hashes : (accepted.map entry).map Chain.TxEntry.txHash = accepted.map txHash := by
    rw [List.map_map]
    rfl
  have computed : (accepted.map fun call => (call.t, call.tx, call.sigs)).mapM
      (cn.entryOf chainID sp) = .ok (accepted.map entry) := by
    refine mapM_ok accepted _ _ entry fun call member => ?_
    have own := canonical call member
    unfold entryOf
    dsimp only
    rw [← own.txHash, signersOf_truthful truthful, own.signers]
    rfl
  exact validateTransactionSignatures_ok (zipped ▸ computed) (hashes ▸ root)

end Replay

section Finalize

variable [Account Acc] [Event Ev] [Base58] [HashFunction] [Msgpack] [AccountCodec Acc]
  [TxOutCodec] [EventCodec Ev] {cn : Chain Acc Ev Tx}

def sealed (bc : BlockCreator Acc Ev Tx) (root : Hash256) : Block Tx :=
  { bc.b with header := { bc.b.header with levelRootHash := root } }

variable {block : Block Tx}

theorem finalize_ok {bc : BlockCreator Acc Ev Tx} (finalized : bc.finalize cn = .ok block) :
    ∃ root ctx, buildLevelRoot bc.txHashes = .ok root ∧ ¬bc.ctx.stackSize > 1 ∧
      runHooks (cn.hooks (·.afterExecuteTransactions (bc.sealed root).view)) bc.ctx =
        (.ok (), ctx) ∧
      block = { bc.sealed root with
        header := { (bc.sealed root).header with contextHash := ctx.hash.1 } } := by
  unfold finalize at finalized
  cases built : buildLevelRoot bc.txHashes with
  | error err => simp [built] at finalized
  | ok root =>
    rw [built] at finalized
    dsimp only at finalized
    by_cases dirty : bc.ctx.stackSize > 1
    · rw [if_pos dirty] at finalized
      cases finalized
    · rw [if_neg dirty] at finalized
      rcases closing : runHooks (cn.hooks (·.afterExecuteTransactions (bc.sealed root).view))
        bc.ctx with ⟨result, ctx⟩
      unfold sealed at closing
      rw [closing] at finalized
      cases result with
      | error err => cases finalized
      | ok _ => exact ⟨root, ctx, rfl, dirty, closing, (Except.ok.inj finalized).symm⟩

variable [Transaction Acc Ev Tx]

theorem createBlock_replays {loader : Loader Acc} (coherent : loader.Coherent)
    (names : loader.NamesCoherent) {generator : Address} {consensusData : Bytes}
    {timestamp : UInt64} {calls : List (TxCall Tx)}
    (canonical : ∀ call ∈ calls, Canonical cn loader.chainID generator call)
    {sp : Option SignerProvider} (truthful : Truthful cn sp)
    (created : createBlock cn (Context.new loader) generator consensusData timestamp calls =
      .ok block) :
    ∃ ctx, cn.executeBlockOnContext loader.chainID block sp (Context.new loader) = (.ok (), ctx) ∧
      ctx.hash.1 = block.header.contextHash := by
  unfold createBlock init at created
  have opening := runHooks_steps (cn.hooks (·.beforeExecuteTransactions))
    (Context.Sound.new loader : (Context.new loader : Context Acc Ev).Sound)
  rcases opened : runHooks (cn.hooks (·.beforeExecuteTransactions))
    (Context.new loader : Context Acc Ev) with ⟨result, start⟩
  simp only [BlockCreator.new, opened] at created
  rw [opened] at opening
  cases result with
  | error err => cases created
  | ok _ =>
  generalize begun : ({ ctx := start, txHashes := _, b := _ } : BlockCreator Acc Ev Tx) = bc
    at created
  have initial : Agreed cn start generator bc.b.header bc [] := by
    subst begun
    refine ⟨rfl, rfl, rfl, rfl, rfl, opening.parents, opening.unhashed rfl, start, rfl, ?_⟩
    have sameLoader : start.loader = loader := opening.loader
    exact Context.Twin.refl opening.sound (sameLoader.symm ▸ coherent) (sameLoader.symm ▸ names)
  have forGenerator : bc.b.header.generator = generator := by rw [← begun]
  obtain ⟨root, ctx, built, single, closed, assembled⟩ := finalize_ok created
  rcases initial.addTxs calls fun call member => (canonical call member).generator with
    ⟨accepted, agreed, listed⟩ | dirty
  · rw [List.nil_append] at agreed
    obtain ⟨replayed, ran, twin⟩ := agreed.replayed
    have entries := validateTransactionSignatures_accepted truthful
      (fun call member => canonical call (listed call member)) (b := block)
      (by rw [assembled]; exact agreed.types) (by rw [assembled]; exact agreed.transactions)
      (by rw [assembled]; exact agreed.signatures)
      (by rw [assembled]
          change buildLevelRoot ((bc.addTxs cn calls).b.header.prevHash :: _) = .ok root
          rw [agreed.header_eq, ← agreed.txHashes, built])
    have sameHeader : block.header.generator = generator ∧
        block.header.timestamp = bc.b.header.timestamp := by
      rw [assembled]
      change (bc.addTxs cn calls).b.header.generator = _ ∧
        (bc.addTxs cn calls).b.header.timestamp = _
      rw [agreed.header_eq]
      exact ⟨forGenerator, rfl⟩
    have sameView : block.view = ((bc.addTxs cn calls).sealed root).view := by rw [assembled]; rfl
    have clean : ¬replayed.stackSize > 1 := by
      have same : replayed.parents = (bc.addTxs cn calls).ctx.parents := by rw [twin.same]
      simp [Context.stackSize, same, agreed.single]
    obtain ⟨sameResult, sameAfter⟩ := runHooks_twin
      (cn.hooks (·.afterExecuteTransactions block.view)) twin
    rw [sameView, closed] at sameResult sameAfter
    refine ⟨_, ?_, (sameAfter.hash).symm.trans (by rw [assembled])⟩
    unfold executeBlockOnContext
    rw [entries]
    rw [opened]
    dsimp only
    rw [sameHeader.1, sameHeader.2, ran]
    dsimp only
    rw [if_neg clean, sameView, Prod.ext_iff]
    exact ⟨sameResult.symm, rfl⟩
  · exact absurd (by simp [Context.stackSize, List.length_pos_iff, dirty]) single

/-- Creator and validator agree. A block that `Finalize` returns after any sequence of
`UnsafeAddTx` calls on a chain state executes on a fresh context over the same state,
with any signer provider that remembers what the signatures recover to, and the hash of
that context is the one in the header. -/
theorem created_block_executes (cn : Chain Acc Ev Tx) (status : Database.Status) (db : Database)
    (named : db.WellNamed Acc) (generator : Address) (consensusData : Bytes) (timestamp : UInt64)
    (calls : List (TxCall Tx))
    (canonical : ∀ call ∈ calls, Canonical cn status.chainID generator call)
    (sp : Option SignerProvider) (truthful : Truthful cn sp) (block : Block Tx)
    (created : createBlock cn (Context.new (db.toLoader status)) generator consensusData timestamp
      calls = .ok block) :
    ∃ ctx, cn.executeBlockOnContext status.chainID block sp (Context.new (db.toLoader status)) =
        (.ok (), ctx) ∧ ctx.hash.1 = block.header.contextHash :=
  createBlock_replays (Database.toLoader_coherent status db) (named.names status) canonical truthful
    created

end Finalize

open Instances

def someCalls : List (TxCall SetData) :=
  [⟨2000000000, [1], [2]⟩, ⟨2000000000, [1], []⟩].map fun tx =>
    ⟨someAddress, idleType, hashTransactionByType 1 idleType tx, tx, [[5]], [[5]]⟩

theorem someDatabase_wellNamed : someDatabase.WellNamed SingleAccount where
  registered _ _ := rfl
  accounts _ _ _ := rfl

theorem created_block_executes_set_data :
    ∃ block, createBlock idleChain (Context.new (someDatabase.toLoader someStatus)) someAddress []
        7000000000 someCalls = .ok block ∧ block.transactions.length = 1 ∧
      ∃ ctx, idleChain.executeBlockOnContext 1 block none
          (Context.new (someDatabase.toLoader someStatus)) = (.ok (), ctx) ∧
        ctx.hash.1 = block.header.contextHash := by
  have canonical : ∀ call ∈ someCalls, Canonical idleChain someStatus.chainID someAddress call := by
    intro call member
    obtain ⟨tx, _, rfl⟩ := List.mem_map.mp member
    exact ⟨rfl, rfl, rfl⟩
  have truthful : Truthful idleChain none := fun _ impossible => nomatch impossible
  have kept : (createBlock idleChain (Context.new (someDatabase.toLoader someStatus)) someAddress []
      7000000000 someCalls).toOption.map (fun block => block.transactions.length) = some 1 := by
    decide +kernel
  cases created : createBlock idleChain (Context.new (someDatabase.toLoader someStatus)) someAddress
      [] 7000000000 someCalls with
  | error err =>
    rw [created] at kept
    cases kept
  | ok block =>
    rw [created] at kept
    exact ⟨block, rfl, Option.some.inj kept,
      created_block_executes idleChain someStatus someDatabase someDatabase_wellNamed someAddress
        [] 7000000000 someCalls canonical none truthful block created⟩

end BlockCreator

end Fleta
