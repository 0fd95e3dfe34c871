import Fleta.Connect
import Fleta.RankTable
import Fleta.Voting

/-!
# The proof-of-formulator consensus

The consensus knows the keys of the observers and the rank table. A block is signed by
the formulator whose turn it is, and by a majority of the observers. Connecting a block
changes the rank table in place, also when the block is refused afterwards.
-/

namespace Fleta.Pof

variable {Acc Ev Tx : Type}

structure FormulatorInfo where
  generatorHash : PublicHash
  isActivated : Bool
deriving DecidableEq

/-- The accounts for which `IsFormulator` holds. -/
class FormulatorAccount (Acc : Type) where
  formulator : Acc → Option FormulatorInfo

/-- What an observer or a formulator signs for a block. -/
structure BlockSign where
  headerHash : Hash256
  generatorSignature : Signature
deriving DecidableEq

class Codec where
  encodeUint32 : UInt32 → Bytes
  decodeUint32 : Bytes → Except Err UInt32
  encodePublicHashBoolMap : SortedMap PublicHash Bool → Bytes
  marshalBlockSign : BlockSign → Bytes

structure Consensus where
  maxBlocksPerFormulator : UInt32
  blocksBySameFormulator : UInt32
  observerKeyMap : SortedMap PublicHash Bool
  rt : RankTable

def tagState : Bytes := [1]

def BlockSign.hash [HashFunction] [Codec] (s : BlockSign) : Hash256 :=
  HashFunction.hash (Codec.marshalBlockSign s)

def signerIn (recover : Signature → Except Err PublicHash) (keys : List PublicHash)
    (sig : Signature) : Except Err PublicHash :=
  match recover sig with
  | .error err => .error err
  | .ok pubhash => if pubhash ∈ keys then .ok pubhash else .error .invalidSignature

/-- `ValidateSignaturesMajority`: the map of signers is smaller than the list of
signatures when a signer occurs twice. -/
def validateSignaturesMajority (recover : Signature → Except Err PublicHash)
    (sigs : List Signature) (keys : List PublicHash) : Except Err Unit :=
  if sigs.length ≠ keys.length / 2 + 1 then .error .insufficientSignature
  else
    match sigs.mapM (signerIn recover keys) with
    | .error err => .error err
    | .ok signers => if signers.Nodup then .ok () else .error .duplicatedSignature

section Majority

variable {recover : Signature → Except Err PublicHash} {sigs : List Signature} {keys : List PublicHash}

theorem signerIn_ok {sig : Signature} {signer : PublicHash} :
    signerIn recover keys sig = .ok signer ↔ recover sig = .ok signer ∧ signer ∈ keys := by
  unfold signerIn
  cases recover sig with
  | error err => simp
  | ok pubhash =>
    dsimp only
    split
    · rename_i listed
      rw [Except.ok.injEq]
      constructor
      · intro same
        exact ⟨same ▸ rfl, same ▸ listed⟩
      · exact fun both => both.1
    · rename_i missing
      simp only [Except.ok.injEq, reduceCtorEq, false_iff, not_and]
      intro same
      exact same ▸ missing

theorem validateSignaturesMajority_ok :
    validateSignaturesMajority recover sigs keys = .ok () ↔
      sigs.length = keys.length / 2 + 1 ∧ ∃ signers, signers.Nodup ∧
        List.Forall₂ (fun sig signer => recover sig = .ok signer ∧ signer ∈ keys) sigs signers := by
  have recovers : ∀ signers, sigs.mapM (signerIn recover keys) = .ok signers ↔
      List.Forall₂ (fun sig signer => recover sig = .ok signer ∧ signer ∈ keys) sigs signers := by
    intro signers
    simp only [mapM_eq_ok, signerIn_ok]
  simp only [← recovers]
  unfold validateSignaturesMajority
  by_cases length : sigs.length = keys.length / 2 + 1
  · rw [if_neg (not_not.mpr length)]
    cases sigs.mapM (signerIn recover keys) with
    | error err => simp
    | ok signers =>
      by_cases distinct : signers.Nodup
      · simp [distinct, length]
      · simp [distinct]
  · simp [length]

theorem majority_of_valid (valid : validateSignaturesMajority recover sigs keys = .ok ()) :
    ∃ signers, Voting.Majority keys signers ∧
      ∀ signer ∈ signers, ∃ sig ∈ sigs, recover sig = .ok signer := by
  obtain ⟨length, signers, distinct, recovered⟩ := validateSignaturesMajority_ok.mp valid
  have each := forall₂_right recovered
  refine ⟨signers, ⟨distinct, ?_, ?_⟩, ?_⟩
  · intro signer listed
    obtain ⟨_, _, _, observer⟩ := each signer listed
    exact observer
  · rw [← recovered.length_eq, length]
  · intro signer listed
    obtain ⟨sig, carried, made, _⟩ := each signer listed
    exact ⟨sig, carried, made⟩

end Majority

namespace Consensus

def observerKeys (cs : Consensus) : List PublicHash := cs.observerKeyMap.eachAll.map Prod.fst

section Validate

variable [HashFunction] [HeaderCodec] [Codec]

def decodeConsensusData (consensusData : Bytes) : Except Err UInt32 :=
  Codec.decodeUint32 consensusData

/-- The source panics on a block without signatures. -/
def validateSignature (recover : Hash256 → Signature → Except Err PublicHash) (bh : Header)
    (sigs : List Signature) (cs : Consensus) : Except Err Unit :=
  match decodeConsensusData bh.consensusData with
  | .error err => .error err
  | .ok timeoutCount =>
    match cs.rt.topRank timeoutCount.toNat with
    | .error err => .error err
    | .ok top =>
      if top.address ≠ bh.generator then .error .invalidTopAddress
      else
        match sigs with
        | [] => .error .panicked
        | generatorSignature :: observerSignatures =>
          match recover bh.hash generatorSignature with
          | .error err => .error err
          | .ok pubhash =>
            if top.publicHash ≠ pubhash then .error .invalidTopSignature
            else if sigs.length ≠ cs.observerKeys.length / 2 + 2 then
              .error .invalidSignatureCount
            else
              validateSignaturesMajority (recover (BlockSign.hash ⟨bh.hash, generatorSignature⟩))
                observerSignatures cs.observerKeys

theorem validateSignature_ok {recover : Hash256 → Signature → Except Err PublicHash} {bh : Header}
    {sigs : List Signature} {cs : Consensus} :
    cs.validateSignature recover bh sigs = .ok () ↔
      ∃ timeoutCount top generatorSignature observerSignatures,
        decodeConsensusData bh.consensusData = .ok timeoutCount ∧
        cs.rt.topRank timeoutCount.toNat = .ok top ∧ top.address = bh.generator ∧
        sigs = generatorSignature :: observerSignatures ∧
        recover bh.hash generatorSignature = .ok top.publicHash ∧
        validateSignaturesMajority (recover (BlockSign.hash ⟨bh.hash, generatorSignature⟩))
          observerSignatures cs.observerKeys = .ok () := by
  constructor
  · intro valid
    unfold validateSignature at valid
    split at valid
    · cases valid
    rename_i timeoutCount decoded
    split at valid
    · cases valid
    rename_i top ranked
    split at valid
    · cases valid
    rename_i turn
    split at valid
    · cases valid
    rename_i generatorSignature observerSignatures
    split at valid
    · cases valid
    rename_i pubhash recovered
    split at valid
    · cases valid
    rename_i own
    split at valid
    · cases valid
    rw [Decidable.not_not] at turn own
    exact ⟨timeoutCount, top, generatorSignature, observerSignatures, decoded, ranked, turn, rfl,
      own ▸ recovered, valid⟩
  · rintro ⟨timeoutCount, top, generatorSignature, observerSignatures, decoded, ranked, turn, rfl,
      recovered, majority⟩
    have count := (validateSignaturesMajority_ok.mp majority).1
    have whole : (generatorSignature :: observerSignatures).length = cs.observerKeys.length / 2 + 2 := by
      rw [List.length_cons, count]
    simp only [validateSignature, decoded, ranked, turn, recovered, whole, ne_eq, not_true,
      if_false, majority]

end Validate

section Save

variable [HashFunction]

def rankFor (addr : Address) (info : FormulatorInfo) (phase : UInt32) : Rank where
  address := addr
  publicHash := info.generatorHash
  phase := phase
  hashSpace := doubleHash addr.bytes

def updateFormulator (targetHeight phase : UInt32) (addr own : Address) (info : FormulatorInfo)
    (rt : RankTable) : Except Err Unit × RankTable :=
  if own.height = targetHeight then
    if info.isActivated then rt.addRank (rankFor addr info phase) else (.ok (), rt)
  else
    match rt.rankOf addr with
    | some r =>
      if !info.isActivated then (.ok (), rt.removeRank addr)
      else if r.publicHash ≠ info.generatorHash then
        (rt.removeRank addr).addRank (rankFor addr info phase)
      else (.ok (), rt)
    | none => if info.isActivated then rt.addRank (rankFor addr info phase) else (.ok (), rt)

variable [Account Acc] [FormulatorAccount Acc]

def updateFormulators (targetHeight phase : UInt32) :
    List (Address × Acc) → RankTable → Except Err Unit × RankTable
  | [], rt => (.ok (), rt)
  | (addr, acc) :: rest, rt =>
    match FormulatorAccount.formulator acc with
    | none => updateFormulators targetHeight phase rest rt
    | some info =>
      match updateFormulator targetHeight phase addr (Account.address acc) info rt with
      | (.error err, rt) => (.error err, rt)
      | (.ok _, rt) => updateFormulators targetHeight phase rest rt

def updateFormulatorList (targetHeight : UInt32) (top : ContextData Acc Ev) (rt : RankTable) :
    Except Err Unit × RankTable :=
  match updateFormulators targetHeight (rt.smallestPhase + 2) top.accountMap.eachAll rt with
  | (.error err, rt) => (.error err, rt)
  | (.ok _, rt) =>
    let removed := top.deletedAccountMap.eachAll.filterMap fun entry =>
      (FormulatorAccount.formulator entry.2).map fun _ => Account.address entry.2
    let rt := removed.foldl (fun rt addr => rt.removeRank addr) rt
    if rt.candidateCount = 0 then (.error .insufficientCandidateCount, rt) else (.ok (), rt)

variable [Msgpack] [Codec]

def encodeRank (s : Rank) : Bytes :=
  Msgpack.encodeBytes s.address.bytes ++ Msgpack.encodeBytes s.publicHash ++
    Codec.encodeUint32 s.phase ++ Msgpack.encodeBytes s.hashSpace

def buildSaveData (cs : Consensus) : Bytes :=
  Codec.encodeUint32 cs.maxBlocksPerFormulator ++ Codec.encodePublicHashBoolMap cs.observerKeyMap ++
    Codec.encodeUint32 cs.blocksBySameFormulator ++
    (Codec.encodeUint32 cs.rt.height ++ Msgpack.encodeArrayLen cs.rt.candidates.length ++
      cs.rt.candidates.flatMap encodeRank)

def forwardTurn (headerHash : Hash256) (cs : Consensus) : Except Err Unit × Consensus :=
  let cs := { cs with blocksBySameFormulator := cs.blocksBySameFormulator + 1 }
  if cs.blocksBySameFormulator ≥ cs.maxBlocksPerFormulator then
    match cs.rt.forwardTop headerHash with
    | .error err => (.error err, cs)
    | .ok rt => (.ok (), { cs with rt := rt, blocksBySameFormulator := 0 })
  else (.ok (), cs)

def forwardMissed (timeoutCount : UInt32) (cs : Consensus) : Except Err Consensus :=
  if timeoutCount > 0 then
    match cs.rt.forwardCandidates timeoutCount.toNat with
    | .error err => .error err
    | .ok rt => .ok { cs with rt := rt, blocksBySameFormulator := 0 }
  else .ok cs

variable [HeaderCodec]

def onSaveData (b : Block Tx) (targetHeight : UInt32) (top : ContextData Acc Ev) (cs : Consensus) :
    Except Err Bytes × Consensus :=
  match decodeConsensusData b.header.consensusData with
  | .error err => (.error err, cs)
  | .ok timeoutCount =>
    match cs.forwardMissed timeoutCount with
    | .error err => (.error err, cs)
    | .ok cs =>
      match cs.forwardTurn b.header.hash with
      | (.error err, cs) => (.error err, cs)
      | (.ok _, cs) =>
        let (result, rt) := updateFormulatorList targetHeight top cs.rt
        let cs := { cs with rt := rt }
        match result with
        | .error err => (.error err, cs)
        | .ok _ => (.ok cs.buildSaveData, cs)

end Save

def parameters (cs : Consensus) : UInt32 × SortedMap PublicHash Bool :=
  (cs.maxBlocksPerFormulator, cs.observerKeyMap)

theorem forwardMissed_parameters {cs cs' : Consensus} {timeoutCount : UInt32}
    (forwarded : cs.forwardMissed timeoutCount = .ok cs') : cs'.parameters = cs.parameters := by
  unfold forwardMissed at forwarded
  split at forwarded
  · split at forwarded
    · cases forwarded
    · cases forwarded
      rfl
  · cases forwarded
    rfl

theorem forwardTurn_parameters (headerHash : Hash256) (cs : Consensus) :
    (cs.forwardTurn headerHash).2.parameters = cs.parameters := by
  unfold forwardTurn
  dsimp only
  split
  · split <;> rfl
  · rfl

theorem onSaveData_parameters [HashFunction] [Account Acc] [FormulatorAccount Acc]
    [Msgpack] [Codec] [HeaderCodec] (b : Block Tx) (targetHeight : UInt32)
    (top : ContextData Acc Ev) (cs : Consensus) :
    (cs.onSaveData b targetHeight top).2.parameters = cs.parameters := by
  unfold onSaveData
  split
  · rfl
  split
  · rfl
  rename_i missed forwarded
  have keys := forwardMissed_parameters forwarded
  have turn := forwardTurn_parameters b.header.hash missed
  split <;> rename_i ended <;> rw [ended] at turn
  · exact turn.trans keys
  · dsimp only
    split <;> exact turn.trans keys

@[simp] theorem onSaveData_observerKeyMap [HashFunction] [Account Acc] [FormulatorAccount Acc]
    [Msgpack] [Codec] [HeaderCodec] (b : Block Tx) (targetHeight : UInt32)
    (top : ContextData Acc Ev) (cs : Consensus) :
    (cs.onSaveData b targetHeight top).2.observerKeyMap = cs.observerKeyMap :=
  congrArg Prod.snd (onSaveData_parameters b targetHeight top cs)

end Consensus

structure Ledger (Tx : Type) where
  store : Store Tx
  cs : Consensus

namespace Ledger

variable [Account Acc] [Event Ev] [Base58] [HashFunction] [Msgpack] [HeaderCodec]
  [AccountCodec Acc] [TxOutCodec] [EventCodec Ev] [FormulatorAccount Acc] [Codec]

/-- The top layer that the consensus is given with a block, once every process and the
application have saved theirs. -/
def savePoint (cn : Chain Acc Ev Tx) (b : Block Tx) (ctx : Context Acc Ev) :
    Option (ContextData Acc Ev) :=
  let (contextHash, ctx) := ctx.hash
  if b.header.contextHash ≠ contextHash then none
  else if ctx.stackSize > 1 then none
  else
    match Chain.runHooks (cn.hooks (·.onSaveData b.view)) ctx with
    | (.error _, _) => none
    | (.ok _, ctx) => some ctx.top

/-- The consensus as the chain sees it while it saves the block. -/
def consensusFor (cn : Chain Acc Ev Tx) (b : Block Tx) (ctx : Context Acc Ev) (lg : Ledger Tx) :
    Fleta.Consensus Acc Ev Tx where
  validateSignature bh sigs := lg.cs.validateSignature cn.recoverPublicHash bh sigs
  onSaveData _ :=
    match savePoint cn b ctx with
    | none => .done (.ok ())
    | some top =>
      match (lg.cs.onSaveData b ctx.genTargetHeight top).1 with
      | .error err => .done (.error err)
      | .ok data => .setProcessData 0 tagState data (.done (.ok ()))

def connectBlockWithContext (cn : Chain Acc Ev Tx) (b : Block Tx) (ctx : Context Acc Ev)
    (lg : Ledger Tx) : Except Err Unit × Ledger Tx :=
  let (result, store) := cn.connectBlockWithContext (lg.consensusFor cn b ctx) b ctx lg.store
  let cs :=
    match savePoint cn b ctx with
    | none => lg.cs
    | some top => (lg.cs.onSaveData b ctx.genTargetHeight top).2
  (result, ⟨store, cs⟩)

/-- The outcome of an attempt to connect a block: the chain has moved, or stands where it
stood. -/
structure Attempted (b : Block Tx) (lg : Ledger Tx) (outcome : Except Err Unit × Ledger Tx) :
    Prop where
  moved : Store.Moved b lg.store (outcome.1, outcome.2.store)
  keys : outcome.2.cs.observerKeyMap = lg.cs.observerKeyMap

variable (cn : Chain Acc Ev Tx)

theorem connectBlockWithContext_attempted (b : Block Tx) (ctx : Context Acc Ev) (lg : Ledger Tx) :
    Attempted b lg (lg.connectBlockWithContext cn b ctx) where
  moved := cn.connectBlockWithContext_moved _ b ctx lg.store
  keys := by
    unfold connectBlockWithContext
    dsimp only
    split
    · rfl
    · exact Consensus.onSaveData_observerKeyMap b _ _ lg.cs

/-- The context that an attempt to connect a block leaves behind. -/
def spentContext (cn : Chain Acc Ev Tx) (b : Block Tx) (ctx : Context Acc Ev) (lg : Ledger Tx) :
    Context Acc Ev :=
  let (contextHash, hashed) := ctx.hash
  if b.header.contextHash ≠ contextHash then hashed
  else if hashed.stackSize > 1 then hashed
  else (Chain.runHooks (cn.saveHooks (lg.consensusFor cn b ctx) b) hashed).2

variable [Transaction Acc Ev Tx]

def connectBlock (cn : Chain Acc Ev Tx) (b : Block Tx) (sp : Option SignerProvider)
    (lg : Ledger Tx) : Except Err Unit × Ledger Tx :=
  match lg.store.validateHeader b.header with
  | .error err => (.error err, lg)
  | .ok _ =>
    match lg.cs.validateSignature cn.recoverPublicHash b.header b.signatures with
    | .error err => (.error err, lg)
    | .ok _ =>
      match cn.executeBlockOnContext lg.store.chainID b sp (Context.new lg.store.loader) with
      | (.error err, _) => (.error err, lg)
      | (.ok _, ctx) => lg.connectBlockWithContext cn b ctx

theorem connectBlock_ok {cn : Chain Acc Ev Tx} {b : Block Tx} {sp : Option SignerProvider}
    {lg lg' : Ledger Tx} (connects : lg.connectBlock cn b sp = (.ok (), lg')) :
    lg.store.validateHeader b.header = .ok () ∧
      lg.cs.validateSignature cn.recoverPublicHash b.header b.signatures = .ok () ∧
      ∃ ctx, cn.executeBlockOnContext lg.store.chainID b sp (Context.new lg.store.loader) =
        (.ok (), ctx) ∧ lg.connectBlockWithContext cn b ctx = (.ok (), lg') := by
  unfold connectBlock at connects
  split at connects
  · cases connects
  rename_i valid
  split at connects
  · cases connects
  rename_i accepted
  split at connects
  · cases connects
  rename_i ctx executed
  exact ⟨valid, accepted, ctx, executed, connects⟩

theorem connectBlock_attempted (b : Block Tx) (sp : Option SignerProvider)
    (lg : Ledger Tx) : Attempted b lg (lg.connectBlock cn b sp) := by
  unfold connectBlock
  split
  · exact ⟨rfl, rfl⟩
  split
  · exact ⟨rfl, rfl⟩
  split
  · exact ⟨rfl, rfl⟩
  · exact connectBlockWithContext_attempted ..

end Ledger

end Fleta.Pof
