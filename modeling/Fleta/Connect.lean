import Fleta.Store

/-!
# Connecting a block to the chain

`ConnectBlock` checks the header against the store, lets the consensus check the
signatures, executes the block on a fresh context and stores it. The chain reaches a
store by connecting blocks, by refusing blocks and by restarts of the node.
-/

namespace Fleta

variable {Acc Ev Tx : Type}

/-- What the chain asks of the consensus: the check of the signatures of a header in
its current state, and what it saves with a block. -/
structure Consensus (Acc Ev Tx : Type) where
  validateSignature : Header → List Signature → Except Err Unit
  onSaveData : Block Tx → Prog Acc Ev

namespace Store

variable [HashFunction] [HeaderCodec]

def validateHeader (bh : Header) (st : Store Tx) : Except Err Unit :=
  if bh.chainID ≠ st.chainID then .error .invalidChainID
  else if bh.version > st.version then .error .invalidVersion
  else if bh.prevHash ≠ st.lastHash then .error .invalidPrevHash
  else if bh.timestamp ≤ st.lastTimestamp then .error .invalidTimestamp
  else if bh.generator = .zero then .error .invalidGenerator
  else if bh.height ≠ st.height + 1 then .error .invalidHeight
  else if bh.height = 1 then
    if bh.version ≤ 0 then .error .invalidVersion else .ok ()
  else
    match st.header st.height with
    | .error err => .error err
    | .ok target =>
      if bh.version < target.version then .error .invalidVersion
      else if bh.chainID ≠ target.chainID then .error .invalidChainID
      else .ok ()

theorem validateHeader_ok {bh : Header} {st : Store Tx} (valid : st.validateHeader bh = .ok ()) :
    bh.chainID = st.chainID ∧ bh.prevHash = st.lastHash ∧ st.lastTimestamp < bh.timestamp ∧
      bh.generator ≠ .zero ∧ bh.height = st.height + 1 := by
  unfold validateHeader at valid
  by_cases chainID : bh.chainID ≠ st.chainID
  · rw [if_pos chainID] at valid
    cases valid
  rw [if_neg chainID] at valid
  by_cases version : bh.version > st.version
  · rw [if_pos version] at valid
    cases valid
  rw [if_neg version] at valid
  by_cases prevHash : bh.prevHash ≠ st.lastHash
  · rw [if_pos prevHash] at valid
    cases valid
  rw [if_neg prevHash] at valid
  by_cases timestamp : bh.timestamp ≤ st.lastTimestamp
  · rw [if_pos timestamp] at valid
    cases valid
  rw [if_neg timestamp] at valid
  by_cases generator : bh.generator = .zero
  · rw [if_pos generator] at valid
    cases valid
  rw [if_neg generator] at valid
  by_cases height : bh.height ≠ st.height + 1
  · rw [if_pos height] at valid
    cases valid
  exact ⟨Decidable.not_not.mp chainID, Decidable.not_not.mp prevHash, UInt64.not_le.mp timestamp,
    generator, Decidable.not_not.mp height⟩

def Moved (b : Block Tx) (st : Store Tx) : Except Err Unit × Store Tx → Prop
  | (.ok _, st') => st'.height = b.header.height
  | (.error _, st') => st'.height = st.height

theorem storeBlock_moved [Account Acc] [AccountCodec Acc] [TxOutCodec] (b : Block Tx)
    (ctd : ContextData Acc Ev) (st : Store Tx) : Moved b st (st.storeBlock b ctd) := by
  unfold storeBlock
  split
  · rfl
  dsimp only
  cases st.db.applyContextData ctd with
  | error err => rfl
  | ok db => rfl

end Store

namespace Chain

variable (cn : Chain Acc Ev Tx)

variable [Account Acc] [Event Ev] [Base58] [HashFunction] [Msgpack] [HeaderCodec]
  [AccountCodec Acc] [TxOutCodec] [EventCodec Ev]

def saveHooks (cs : Consensus Acc Ev Tx) (b : Block Tx) : List (Prog Acc Ev) :=
  cn.hooks (·.onSaveData b.view) ++ [cs.onSaveData b]

def connectBlockWithContext (cs : Consensus Acc Ev Tx) (b : Block Tx) (ctx : Context Acc Ev)
    (st : Store Tx) : Except Err Unit × Store Tx :=
  let (contextHash, ctx) := ctx.hash
  if b.header.contextHash ≠ contextHash then (.error .invalidContextHash, st)
  else if ctx.stackSize > 1 then (.error .dirtyContext, st)
  else
    match runHooks (cn.saveHooks cs b) ctx with
    | (.error err, _) => (.error err, st)
    | (.ok _, ctx) => st.storeBlock b ctx.top

theorem connectBlockWithContext_moved (cs : Consensus Acc Ev Tx) (b : Block Tx)
    (ctx : Context Acc Ev) (st : Store Tx) :
    Store.Moved b st (cn.connectBlockWithContext cs b ctx st) := by
  unfold connectBlockWithContext
  dsimp only
  split
  · rfl
  split
  · rfl
  split
  · rfl
  · exact Store.storeBlock_moved b _ st

variable [Transaction Acc Ev Tx]

def connectBlock (cs : Consensus Acc Ev Tx) (b : Block Tx) (sp : Option SignerProvider)
    (st : Store Tx) : Except Err Unit × Store Tx :=
  match st.validateHeader b.header with
  | .error err => (.error err, st)
  | .ok _ =>
    match cs.validateSignature b.header b.signatures with
    | .error err => (.error err, st)
    | .ok _ =>
      match cn.executeBlockOnContext st.chainID b sp (Context.new st.loader) with
      | (.error err, _) => (.error err, st)
      | (.ok _, ctx) => cn.connectBlockWithContext cs b ctx st

/-- `Chain.Init` on an opened store: the genesis is stored, or compared with the one
that was. -/
def init (genHash : Hash256) (genesis : ContextData Acc Ev) (st : Store Tx) :
    Except Err (Store Tx) :=
  if st.height > 0 then
    match st.hash 0 with
    | .error err => .error err
    | .ok h => if genHash ≠ h then .error .invalidGenesisHash else .ok st
  else st.storeGenesis genHash genesis

def restart (genHash : Hash256) (genesis : ContextData Acc Ev)
    (fn : Block Tx → Store Tx → Except Err Unit × Store Tx) (st : Store Tx) :
    Except Err Unit × Store Tx :=
  let opened := { st with cache := none, timeSlotMap := .empty }
  match init genHash genesis opened with
  | .error err => (.error err, opened)
  | .ok st => st.iterBlockAfterContext fn

/-- A node of the chain has connected `blocks` and stands at the store, after the given
number of restarts. The state of the consensus and the signer provider may be different
at every block. -/
inductive Reaches (start : Store Tx) (genHash : Hash256) (genesis : ContextData Acc Ev) :
    Nat → List (Block Tx) → Store Tx → Prop
  | init {st : Store Tx} (stored : init genHash genesis start = .ok st) :
      Reaches start genHash genesis 0 [] st
  | connect {restarts : Nat} {blocks : List (Block Tx)} {st st' : Store Tx}
      (reached : Reaches start genHash genesis restarts blocks st) (cs : Consensus Acc Ev Tx)
      (b : Block Tx) (sp : Option SignerProvider)
      (connected : cn.connectBlock cs b sp st = (.ok (), st')) :
      Reaches start genHash genesis restarts (blocks ++ [b]) st'
  | refuse {restarts : Nat} {blocks : List (Block Tx)} {st st' : Store Tx} {err : Err}
      (reached : Reaches start genHash genesis restarts blocks st) (cs : Consensus Acc Ev Tx)
      (b : Block Tx) (sp : Option SignerProvider)
      (refused : cn.connectBlock cs b sp st = (.error err, st')) :
      Reaches start genHash genesis restarts blocks st'
  | restart {restarts : Nat} {blocks : List (Block Tx)} {st st' : Store Tx}
      (reached : Reaches start genHash genesis restarts blocks st)
      (fn : Block Tx → Store Tx → Except Err Unit × Store Tx)
      (restarted : restart genHash genesis fn st = (.ok (), st')) :
      Reaches start genHash genesis (restarts + 1) blocks st'

end Chain

def Store.fresh (chainID : UInt8) (name : Bytes) (version : UInt16) : Store Tx where
  chainID := chainID
  name := name
  version := version
  db := .empty
  dbHeight := 0
  genesisHash := []
  blocks := []
  cache := none
  timeSlotMap := .empty

end Fleta
