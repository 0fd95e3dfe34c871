import Fleta.RankTraces
import Fleta.ObserverInstances

/-!
# Blocks that fail to connect

A block can fail at its header, its signatures or its transactions, at the hash of its context,
at a hook, at the consensus, or where it is stored. The consensus works on its own table in
place. So a failure leaves the chain as it was exactly if the block does not get as far as the
table.
-/

namespace Fleta

variable {Acc Ev Tx : Type}

theorem Chain.runHooks_snoc_ok [Account Acc] [Base58] [Event Ev] {hooks : List (Prog Acc Ev)}
    {last : Prog Acc Ev} {ctx final : Context Acc Ev}
    (ran : runHooks (hooks ++ [last]) ctx = (.ok (), final)) :
    ∃ mid, runHooks hooks ctx = (.ok (), mid) ∧ last.run mid = (.ok (), final) := by
  induction hooks generalizing ctx with
  | nil =>
    refine ⟨ctx, rfl, ?_⟩
    rw [List.nil_append, runHooks] at ran
    split at ran
    · cases ran
    · rename_i after passed
      split at ran
      · cases ran
      · cases ran
        exact passed
  | cons hook rest ih =>
    rw [List.cons_append, runHooks] at ran
    rw [runHooks]
    split at ran
    · cases ran
    · rename_i after passed
      split at ran
      · cases ran
      · rename_i single
        rw [if_neg single]
        exact ih ran

namespace Pof

/-- The two ways to connect a block: with the signers that a pool knows, or with the context
that it was executed on. -/
inductive Connect (Acc Ev : Type) where
  | block (sp : Option SignerProvider)
  | withContext (ctx : Context Acc Ev)

namespace Connect

variable [Account Acc] [Event Ev] [Base58] [HashFunction] [Msgpack] [HeaderCodec]
  [AccountCodec Acc] [TxOutCodec] [EventCodec Ev] [FormulatorAccount Acc] [Codec]
  [Transaction Acc Ev Tx]

def run (cn : Chain Acc Ev Tx) (b : Block Tx) (lg : Ledger Tx) :
    Connect Acc Ev → Except Err Unit × Ledger Tx
  | .block sp => lg.connectBlock cn b sp
  | .withContext ctx => lg.connectBlockWithContext cn b ctx

def context (cn : Chain Acc Ev Tx) (b : Block Tx) (lg : Ledger Tx) :
    Connect Acc Ev → Option (Context Acc Ev)
  | .withContext ctx => some ctx
  | .block sp =>
    match lg.store.validateHeader b.header,
      lg.cs.validateSignature cn.recoverPublicHash b.header b.signatures with
    | .ok _, .ok _ =>
      match cn.executeBlockOnContext lg.store.chainID b sp (Context.new lg.store.loader) with
      | (.ok _, ctx) => some ctx
      | (.error _, _) => none
    | _, _ => none

/-- The block gets as far as the table: it passes the checks and the hooks before the
consensus, and its header counts fewer missed turns than there are candidates. -/
def ReachesTable (cn : Chain Acc Ev Tx) (b : Block Tx) (lg : Ledger Tx) (call : Connect Acc Ev) :
    Prop :=
  ∃ ctx top timeoutCount, call.context cn b lg = some ctx ∧ Ledger.savePoint cn b ctx = some top ∧
    Consensus.decodeConsensusData b.header.consensusData = .ok timeoutCount ∧
    (timeoutCount = 0 ∨ timeoutCount.toNat < lg.cs.rt.candidates.length)

end Connect

namespace Ledger

variable [Account Acc] [Base58] [HashFunction] [HeaderCodec] [AccountCodec Acc] [TxOutCodec]

variable (Acc) in
/-- The rank table, the count of blocks and every read of the store are the same. -/
structure Unchanged (lg lg' : Ledger Tx) : Prop where
  rt : lg'.cs.rt = lg.cs.rt
  blocksBySameFormulator : lg'.cs.blocksBySameFormulator = lg.cs.blocksBySameFormulator
  height : lg'.store.height = lg.store.height
  hash : ∀ height, lg'.store.hash height = lg.store.hash height
  header : ∀ height, lg'.store.header height = lg.store.header height
  block : ∀ height, lg'.store.block height = lg.store.block height
  db : lg'.store.db = lg.store.db
  loader : (lg'.store.loader : Loader Acc) = lg.store.loader

omit [Account Acc] in
theorem Unchanged.refl (lg : Ledger Tx) : Unchanged Acc lg lg :=
  ⟨rfl, rfl, rfl, fun _ => rfl, fun _ => rfl, fun _ => rfl, rfl, rfl⟩

variable [Event Ev] [Msgpack] [EventCodec Ev] [FormulatorAccount Acc] [Codec]
  (cn : Chain Acc Ev Tx) (b : Block Tx) (ctx : Context Acc Ev) (lg : Ledger Tx)

theorem connectBlockWithContext_store :
    (lg.connectBlockWithContext cn b ctx).2.store = lg.store ∨
      ∃ top data, savePoint cn b ctx = some top ∧
        (lg.cs.onSaveData b ctx.genTargetHeight top).1 = .ok data := by
  unfold connectBlockWithContext Chain.connectBlockWithContext
  dsimp only
  split
  · exact .inl rfl
  rename_i sameHash
  split
  · exact .inl rfl
  rename_i single
  split
  · exact .inl rfl
  rename_i final saved
  right
  obtain ⟨mid, hooked, last⟩ := Chain.runHooks_snoc_ok saved
  have point : savePoint cn b ctx = some mid.top := by
    unfold savePoint
    dsimp only
    rw [if_neg sameHash, if_neg single, hooked]
  refine ⟨mid.top, ?_⟩
  dsimp only [consensusFor] at last
  rw [point] at last
  dsimp only at last
  split at last
  · cases last
  · rename_i data made
    exact ⟨data, point, made⟩

variable {cn b ctx lg}

theorem connectBlockWithContext_untouched
    (short : ∀ top, savePoint cn b ctx = some top →
      ∃ err, lg.cs.onSaveData b ctx.genTargetHeight top = (.error err, lg.cs)) :
    (lg.connectBlockWithContext cn b ctx).2 = lg := by
  have consensus : (lg.connectBlockWithContext cn b ctx).2.cs = lg.cs := by
    unfold connectBlockWithContext
    dsimp only
    split
    · rfl
    · rename_i top point
      obtain ⟨err, refused⟩ := short top point
      rw [refused]
  have stored : (lg.connectBlockWithContext cn b ctx).2.store = lg.store := by
    rcases connectBlockWithContext_store cn b ctx lg with same | ⟨top, data, point, made⟩
    · exact same
    · obtain ⟨err, refused⟩ := short top point
      rw [refused] at made
      cases made
  exact congr (congrArg Ledger.mk stored) consensus

end Ledger

namespace Connect

variable [Account Acc] [Event Ev] [Base58] [HashFunction] [Msgpack] [HeaderCodec]
  [AccountCodec Acc] [TxOutCodec] [EventCodec Ev] [FormulatorAccount Acc] [Codec]
  [Transaction Acc Ev Tx] {cn : Chain Acc Ev Tx} {b : Block Tx} {lg : Ledger Tx}

theorem run_outcome (cn : Chain Acc Ev Tx) (b : Block Tx) (lg : Ledger Tx) (call : Connect Acc Ev) :
    (call.context cn b lg = none ∧ (call.run cn b lg).2 = lg) ∨
      ∃ ctx, call.context cn b lg = some ctx ∧
        call.run cn b lg = lg.connectBlockWithContext cn b ctx := by
  cases call with
  | withContext ctx => exact .inr ⟨ctx, rfl, rfl⟩
  | block sp =>
    rw [context, run, Ledger.connectBlock]
    cases lg.store.validateHeader b.header with
    | error err => exact .inl ⟨rfl, rfl⟩
    | ok _ =>
      cases lg.cs.validateSignature cn.recoverPublicHash b.header b.signatures with
      | error err => exact .inl ⟨rfl, rfl⟩
      | ok _ =>
        dsimp only
        generalize cn.executeBlockOnContext lg.store.chainID b sp
          (Context.new lg.store.loader) = executed
        obtain ⟨result, ctx⟩ := executed
        cases result with
        | error err => exact .inl ⟨rfl, rfl⟩
        | ok _ => exact .inr ⟨ctx, rfl, rfl⟩

theorem unchanged_of_short (call : Connect Acc Ev) (short : ¬call.ReachesTable cn b lg) :
    (call.run cn b lg).2 = lg := by
  rcases call.run_outcome cn b lg with ⟨_, same⟩ | ⟨ctx, given, connects⟩
  · exact same
  rw [connects]
  apply Ledger.connectBlockWithContext_untouched
  intro top point
  unfold Consensus.onSaveData
  cases decoded : Consensus.decodeConsensusData b.header.consensusData with
  | error err => exact ⟨err, rfl⟩
  | ok timeoutCount =>
    have beyond : ¬(timeoutCount = 0 ∨ timeoutCount.toNat < lg.cs.rt.candidates.length) :=
      fun inside => short ⟨ctx, top, timeoutCount, given, point, decoded, inside⟩
    rw [not_or, Nat.not_lt] at beyond
    have missed : timeoutCount > 0 := UInt32.pos_iff_ne_zero.mpr beyond.1
    have refused : lg.cs.forwardMissed timeoutCount = .error .exceedCandidateCount := by
      rw [Consensus.forwardMissed, if_pos missed, RankTable.forwardCandidates, if_pos beyond.2]
    dsimp only
    rw [refused]
    exact ⟨_, rfl⟩

/-- A call that fails leaves the table, the count and every read of the store as they were if
the block does not get as far as the table, and only then in a table of at most 2³¹
candidates. -/
theorem failed_unchanged_iff (cn : Chain Acc Ev Tx) (b : Block Tx) (lg : Ledger Tx)
    (call : Connect Acc Ev) (err : Err) : (call.run cn b lg).1 = .error err →
    (¬call.ReachesTable cn b lg → Ledger.Unchanged Acc lg (call.run cn b lg).2) ∧
      (lg.cs.rt.candidates.length ≤ 2 ^ 31 → Ledger.Unchanged Acc lg (call.run cn b lg).2 →
        ¬call.ReachesTable cn b lg) := by
  intro _
  constructor
  · intro short
    rw [unchanged_of_short call short]
    exact .refl lg
  · rintro few unchanged ⟨ctx, top, timeoutCount, given, point, decoded, inside⟩
    rcases call.run_outcome cn b lg with ⟨refused, _⟩ | ⟨ctx', given', connects⟩
    · rw [refused] at given
      cases given
    · obtain rfl : ctx' = ctx := Option.some.inj (given'.symm.trans given)
      rw [connects] at unchanged
      have sameTable := unchanged.rt
      have sameBlocks := unchanged.blocksBySameFormulator
      simp only [Ledger.connectBlockWithContext, point] at sameTable sameBlocks
      exact Consensus.onSaveData_changes _ top decoded inside few sameTable sameBlocks

end Connect

namespace LastFormulator

open Instances ObserverInstances

scoped instance (priority := 3000) : FormulatorAccount SingleAccount where
  formulator acc := some ⟨acc.keyHash, true⟩

def revoking : Process SingleAccount PlainEvent SetData :=
  { idle with
    afterExecuteTransactions := fun _ => .account someAddress fun found =>
      match found with
      | .error err => .done (.error err)
      | .ok acc => .deleteAccount acc .done }

def revokingChain : Chain SingleAccount PlainEvent SetData :=
  { idleChain with
    app := revoking
    recoverPublicHash := recoverKey }

def lastHeader : Header :=
  { ObserverInstances.firstBlock.header with
    contextHash := (revokingChain.executeBlockOnContext 1 ObserverInstances.firstBlock none
      (Context.new firstLedger.store.loader)).2.hash.1 }

def lastBlock : Block SetData :=
  let generatorSignature := signWith [] [9] lastHeader.hash
  let digest := BlockSign.hash ⟨lastHeader.hash, generatorSignature⟩
  { ObserverInstances.firstBlock with
    header := lastHeader
    signatures := [generatorSignature, signWith [] [1] digest, signWith [] [2] digest] }

def otherBlock : Block SetData :=
  let b := ObserverInstances.firstBlock
  { b with header := { b.header with version := 2 } }

/-- A block of another version leaves everything as it was. -/
theorem other_version_unchanged :
    ((Connect.block none).run revokingChain otherBlock firstLedger).1 = .error .invalidVersion ∧
      Ledger.Unchanged SingleAccount firstLedger
        ((Connect.block none).run revokingChain otherBlock firstLedger).2 := by
  refine ⟨rfl, (Connect.failed_unchanged_iff _ _ _ _ _ rfl).1 ?_⟩
  rintro ⟨ctx, _, _, given, _⟩
  cases given

/-- A block that deletes the last formulator is refused for the empty table, and the table is
at the next height. -/
theorem last_formulator_table_changed :
    ((Connect.block none).run revokingChain lastBlock firstLedger).1 =
        .error .insufficientCandidateCount ∧
      ¬Ledger.Unchanged SingleAccount firstLedger
        ((Connect.block none).run revokingChain lastBlock firstLedger).2 := by
  constructor
  · decide +kernel
  · intro unchanged
    have height := congrArg RankTable.height unchanged.rt
    revert height
    decide +kernel

end LastFormulator

end Pof

end Fleta
