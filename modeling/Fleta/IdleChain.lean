import Fleta.TimeSlots

/-!
# Growing an idle chain

A chain whose application and consensus do nothing can be extended on every store: by an
empty block, and by a block with one transaction as long as the store does not know it
and the generator has an account. Runs of any length are built from these two steps.
-/

namespace Fleta.Instances

open Chain Context

def idleConsensus : Consensus SingleAccount PlainEvent SetData where
  validateSignature _ _ := .ok ()
  onSaveData _ := .done (.ok ())

def nextHeader (st : Store SetData) (timestamp : UInt64) (txHashes : List Hash256)
    (contextHash : Hash256) : Header where
  chainID := st.chainID
  version := 1
  height := st.height + 1
  prevHash := st.lastHash
  levelRootHash := (buildLevelRoot (st.lastHash :: txHashes)).toOption.getD []
  contextHash := contextHash
  timestamp := timestamp
  generator := someAddress
  consensusData := []

structure Ready (timestamp : UInt64) (st : Store SetData) : Prop where
  version : st.version = 1
  last : st.height ≠ 0 → ∃ last, st.header st.height = .ok last ∧ last.version = 1 ∧
    last.chainID = st.chainID ∧ last.timestamp = timestamp

variable {st : Store SetData}

theorem validateHeader_next {last timestamp : UInt64} (ready : Ready last st)
    (later : st.height ≠ 0 → last < timestamp) (positive : 0 < timestamp) (txHashes : List Hash256)
    (contextHash : Hash256) :
    st.validateHeader (nextHeader st timestamp txHashes contextHash) = .ok () := by
  have generator : ¬someAddress = Address.zero := by decide
  have fresh : ¬timestamp ≤ st.lastTimestamp := by
    rw [UInt64.not_le]
    unfold Store.lastTimestamp
    split
    · exact positive
    · rename_i high
      obtain ⟨header, found, _, _, same⟩ := ready.last high
      rw [found]
      dsimp only
      rw [same]
      exact later high
  have current : ¬(1 : UInt16) > st.version := by
    rw [ready.version]
    decide
  unfold Store.validateHeader nextHeader
  dsimp only
  rw [if_neg (by simp), if_neg current, if_neg (by simp), if_neg fresh, if_neg generator,
    if_neg (by simp)]
  split
  · rfl
  · rename_i notFirst
    have high : st.height ≠ 0 := by
      intro zero
      rw [zero] at notFirst
      exact notFirst rfl
    obtain ⟨header, found, version, chainID, _⟩ := ready.last high
    rw [found]
    dsimp only
    rw [version, chainID]
    simp

def emptyBlock (st : Store SetData) (timestamp : UInt64) : Block SetData where
  header := nextHeader st timestamp [] (new st.loader : Context SingleAccount PlainEvent).hash.1
  transactionTypes := []
  transactions := []
  transactionSignatures := []
  signatures := []

theorem connect_emptyBlock {timestamp : UInt64}
    (valid : st.validateHeader (emptyBlock st timestamp).header = .ok ()) :
    idleChain.connectBlock idleConsensus (emptyBlock st timestamp) none st =
      (.ok (), { st with
        dbHeight := st.height + 1
        blocks := Store.appendData (emptyBlock st timestamp) st.blocks
        cache := some ⟨st.height + 1, (emptyBlock st timestamp).header.hash,
          some (emptyBlock st timestamp)⟩
        timeSlotMap := st.timeSlotMap.prune (toTimeSlot timestamp) }) := by
  have root : buildLevelRoot [st.lastHash] =
      .ok (emptyBlock st timestamp).header.levelRootHash := rfl
  have executed : idleChain.executeBlockOnContext st.chainID (emptyBlock st timestamp) none
      (new st.loader) = (.ok (), new st.loader) := by
    refine (executeBlockOnContext_ok ..).mpr ⟨[], _, _, ?_, rfl, rfl, ?_, rfl⟩
    · exact validateTransactionSignatures_ok rfl root
    · exact Nat.lt_irrefl 1
  unfold connectBlock
  rw [valid, executed]
  dsimp only [idleConsensus]
  unfold connectBlockWithContext
  dsimp only
  rw [if_neg fun different => different rfl]
  rfl

def earlyTx : SetData := ⟨2000000000, [1], [2]⟩

def earlyHash : Hash256 := hashTransactionByType 1 idleType earlyTx

def txBlock (st : Store SetData) (contextHash : Hash256) : Block SetData where
  header := nextHeader st 7000000000 [earlyHash] contextHash
  transactionTypes := [idleType]
  transactions := [earlyTx]
  transactionSignatures := [[]]
  signatures := []

abbrev newContext (st : Store SetData) : Context SingleAccount PlainEvent := new st.loader

theorem execute_txBlock (chain : st.chainID = 1) (account : st.db.hasAccount someAddress = .ok true)
    (unused : st.timeSlotMap.hasKey 0 earlyHash = false) :
    ∃ ctx : Context SingleAccount PlainEvent, ctx.Sound ∧ ctx.loader = st.loader ∧
      ctx.parents = [] ∧ ∀ contextHash,
        idleChain.executeBlockOnContext st.chainID (txBlock st contextHash) none
          (new st.loader) = (.ok (), ctx) := by
  have sound : (newContext st).Sound := Context.Sound.new st.loader
  obtain ⟨cache, agrees, used⟩ := useTimeSlot_snapshot sound 0 earlyHash
  have unknown : (newContext st).loader.hasTimeSlot 0 earlyHash = false := unused
  rw [unknown] at used
  have kept : ContextCache.hasAccount (st.loader : Loader SingleAccount) someAddress cache =
      .ok true := by
    exact (ContextCache.hasAccount_eq agrees (Database.toLoader_coherent st.status st.db) _).trans
      account
  have outcome := executeTransaction_outcome sound someAddress (processOf idleType) 0
    earlyHash earlyTx [] 0
  have passed : (executeTransaction someAddress (processOf idleType) 0 earlyHash earlyTx [] 0
      (newContext st)).1 = .ok () := by
    unfold executeTransaction
    dsimp only
    rw [used]
    change generatorKept (ContextCache.hasAccount st.loader someAddress cache) = .ok ()
    rw [kept]
    rfl
  rcases ran : executeTransaction someAddress (processOf idleType) 0 earlyHash earlyTx [] 0
    (newContext st) with ⟨result, ctx⟩
  rw [ran] at passed outcome
  dsimp only at passed outcome
  subst passed
  rcases outcome with ⟨_, failed, _⟩ | ⟨_, _, failed, _⟩ | ⟨_, _, committed⟩
  · cases failed
  · cases failed
  refine ⟨ctx, committed.sound, committed.loader, committed.parents, fun contextHash => ?_⟩
  have root : buildLevelRoot [st.lastHash, earlyHash] =
      .ok (txBlock st contextHash).header.levelRootHash := rfl
  have single : ctx.stackSize = 1 := by
    rw [stackSize, committed.parents]
    rfl
  have closing : runHooks (idleChain.hooks
      (·.afterExecuteTransactions (txBlock st contextHash).view)) ctx = (.ok (), ctx) := by
    change (if ctx.stackSize > 1 then _ else _) = _
    rw [single]
    rfl
  refine (executeBlockOnContext_ok ..).mpr
    ⟨[⟨idleType, earlyTx, earlyHash, []⟩], _, ctx, ?_, rfl, ?_, by omega, closing⟩
  · refine validateTransactionSignatures_ok ?_ root
    rw [chain]
    rfl
  · rw [executeTransactions_cons]
    have inside : outsideWindow (toTimeSlot 7000000000) (toTimeSlot earlyTx.timestamp) =
        false := by decide
    exact ⟨inside, rfl, ctx, ran, rfl⟩

theorem connect_txBlock (chain : st.chainID = 1) (account : st.db.hasAccount someAddress = .ok true)
    (unused : st.timeSlotMap.hasKey 0 earlyHash = false)
    (valid : ∀ contextHash, st.validateHeader (txBlock st contextHash).header = .ok ()) :
    ∃ contextHash,
      (idleChain.connectBlock idleConsensus (txBlock st contextHash) none st).1 = .ok () := by
  obtain ⟨ctx, sound, atop, single, executed⟩ := execute_txBlock chain account unused
  have shallow : ctx.hash.2.stackSize = 1 := by
    rw [stackSize, hash_parents, single]
    rfl
  have saved : runHooks (idleChain.saveHooks idleConsensus (txBlock st ctx.hash.1))
      ctx.hash.2 = (.ok (), ctx.hash.2) := by
    change (if ctx.hash.2.stackSize > 1 then _ else
      if ctx.hash.2.stackSize > 1 then _ else _) = _
    rw [shallow]
    rfl
  have applied : st.db.applyContextData ctx.hash.2.top = _ :=
    applyContextData_sound sound.hash ((hash_loader ctx).trans atop)
  have accepted : idleConsensus.validateSignature (txBlock st ctx.hash.1).header
      (txBlock st ctx.hash.1).signatures = .ok () := rfl
  have encodable : (txBlock st ctx.hash.1).encodable = true := rfl
  refine ⟨ctx.hash.1, ?_⟩
  unfold connectBlock
  rw [valid, accepted, executed]
  unfold connectBlockWithContext
  dsimp only
  rw [if_neg fun different => different rfl, if_neg (by omega), saved]
  dsimp only
  unfold Store.storeBlock
  rw [if_neg (by simp [encodable])]
  dsimp only
  rw [applied]

def someGenesis : ContextData SingleAccount PlainEvent :=
  { (.new none : ContextData SingleAccount PlainEvent) with
    accountMap := SortedMap.empty.put someAddress someAccount }

def firstStore : Store SetData :=
  match init [] someGenesis (Store.fresh 1 [] 1) with
  | .ok st => st
  | .error _ => .fresh 1 [] 1

def firstBlock : Block SetData :=
  txBlock firstStore (idleChain.executeBlockOnContext 1 (txBlock firstStore []) none
    (new firstStore.loader)).2.hash.1

def secondStore : Store SetData :=
  (idleChain.connectBlock idleConsensus firstBlock none firstStore).2

abbrev IdleReaches (blocks : List (Block SetData)) (st : Store SetData) : Prop :=
  idleChain.Reaches (.fresh 1 [] 1) [] someGenesis 0 blocks st

theorem Ready.connected {st' : Store SetData} {b : Block SetData}
    (step : Chain.Connected b st st') (version : st.version = 1) (own : b.header.version = 1) :
    Ready b.header.timestamp st' ∧ st'.height = b.header.height ∧ st'.chainID = st.chainID := by
  obtain ⟨db, map, stored⟩ := step.stored
  refine ⟨⟨by rw [stored]; exact version, fun high => ?_⟩, by rw [stored]; rfl, by rw [stored]⟩
  have notLow : ¬st'.height < 1 := by
    intro low
    apply high
    rw [UInt32.lt_iff_toNat_lt, UInt32.toNat_one] at low
    exact UInt32.toNat_inj.mp (by rw [UInt32.toNat_zero]; exact Nat.lt_one_iff.mp low)
  have found : st'.header st'.height = .ok b.header := by
    unfold Store.header Store.block Store.cachedAt
    rw [if_neg notLow, stored]
    dsimp only [Store.height]
    rw [Option.filter_some, if_pos (beq_self_eq_true _)]
    rfl
  exact ⟨b.header, found, own, by rw [stored]; exact (Store.validateHeader_ok step.valid).1, rfl⟩

theorem connect_firstBlock :
    idleChain.connectBlock idleConsensus firstBlock none firstStore = (.ok (), secondStore) ∧
      secondStore.db.hasAccount someAddress = .ok true := by
  have evaluated : (idleChain.connectBlock idleConsensus firstBlock none firstStore).1 = .ok () ∧
      (idleChain.connectBlock idleConsensus firstBlock none firstStore).2.db.hasAccount
        someAddress = .ok true := by
    decide +kernel
  unfold secondStore
  generalize idleChain.connectBlock idleConsensus firstBlock none firstStore = outcome
    at evaluated ⊢
  exact ⟨Prod.ext evaluated.1 rfl, evaluated.2⟩

theorem reaches_firstBlock : IdleReaches [firstBlock] secondStore :=
  .connect (.init rfl) idleConsensus firstBlock none connect_firstBlock.1

def timestampAt (height : Nat) : UInt64 := UInt64.ofNat (20000000000 + height)

theorem timestampAt_lt {earlier later : Nat} (ordered : earlier < later)
    (bound : later ≤ 2 ^ 33) : timestampAt earlier < timestampAt later := by
  rw [timestampAt, timestampAt, UInt64.lt_iff_toNat_lt, UInt64.toNat_ofNat', UInt64.toNat_ofNat']
  omega

structure Grown (height : Nat) (blocks : List (Block SetData)) (st : Store SetData) : Prop where
  reached : IdleReaches blocks st
  length : blocks.length = height
  first : firstBlock ∈ blocks
  ready : Ready (timestampAt height) st
  height : st.height = UInt32.ofNat height
  chainID : st.chainID = 1
  account : st.db.hasAccount someAddress = .ok true
  forgotten : st.timeSlotMap.hasKey 0 earlyHash = false

theorem reaches_emptyBlock {blocks : List (Block SetData)}
    {last : UInt64} (timestamp : UInt64) (reached : IdleReaches blocks st) (ready : Ready last st)
    (later : st.height ≠ 0 → last < timestamp) (positive : 0 < timestamp) :
    ∃ b st', IdleReaches (blocks ++ [b]) st' ∧ Ready timestamp st' ∧
      st'.height = st.height + 1 ∧ st'.chainID = st.chainID ∧ st'.db = st.db ∧
      st'.timeSlotMap = st.timeSlotMap.prune (toTimeSlot timestamp) := by
  have connected := connect_emptyBlock (validateHeader_next ready later positive _ _)
  obtain ⟨nextReady, height, chainID⟩ :=
    Ready.connected (connectBlock_connected connected) ready.version rfl
  exact ⟨_, _, .connect reached idleConsensus _ none connected, nextReady, height, chainID, rfl, rfl⟩

theorem grown_two : ∃ blocks st, Grown 2 blocks st := by
  obtain ⟨connected, account⟩ := connect_firstBlock
  obtain ⟨ready, height, chainID⟩ := Ready.connected (connectBlock_connected connected) rfl rfl
  obtain ⟨b, st, reached, nextReady, next, sameChain, db, slots⟩ :=
    reaches_emptyBlock (timestampAt 2) reaches_firstBlock ready (fun _ => by decide) (by decide)
  refine ⟨_, st, reached, rfl, by simp, nextReady, ?_, sameChain.trans (chainID.trans rfl),
    (by rw [db]; exact account), ?_⟩
  · have first : firstBlock.header.height = 1 := by decide +kernel
    rw [next, height, first]
    decide
  · rw [slots, TimeSlotMap.hasKey_prune]
    have old : (0 : UInt32) < toTimeSlot (timestampAt 2) - 1 := by decide
    simp [old]

/-- The idle chain grows to every height, also above the largest 32-bit number. -/
theorem grown (more : Nat) (bound : more + 2 ≤ 2 ^ 33) : ∃ blocks st, Grown (more + 2) blocks st := by
  induction more with
  | zero => exact grown_two
  | succ more ih =>
    obtain ⟨blocks, st, small⟩ := ih (by omega)
    have increasing := timestampAt_lt (Nat.lt_succ_self (more + 2)) (by omega)
    obtain ⟨b, st', reached, ready, next, chainID, db, slots⟩ :=
      reaches_emptyBlock _ small.reached small.ready (fun _ => increasing)
        (UInt64.lt_of_le_of_lt UInt64.zero_le increasing)
    refine ⟨_, st', reached, ?_, List.mem_append_left _ small.first, ?_, ?_,
      chainID.trans small.chainID, db ▸ small.account, ?_⟩
    · rw [List.length_append, small.length, List.length_singleton]
    · rw [show more + 1 + 2 = more + 2 + 1 by omega]
      exact ready
    · rw [next, small.height, show more + 1 + 2 = more + 2 + 1 by omega]
      exact (UInt32.ofNat_add _ 1).symm
    · rw [slots, TimeSlotMap.hasKey_prune, small.forgotten, Bool.and_false]

end Fleta.Instances
