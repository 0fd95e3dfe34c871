import Fleta.StoredConsensus

/-!
# The blocks that are left of a turn

The consensus counts the blocks of the formulator whose turn it is, and the count stays
below the limit: a block that reaches it ends the turn and the count begins again. The end
of a turn needs a candidate, and a block that is saved has one.
-/

namespace Fleta.Pof

variable {Acc Ev Tx : Type}

theorem RankTable.topRank_candidates {rt : RankTable} {timeoutCount : Nat} {top : Rank}
    (ranked : rt.topRank timeoutCount = .ok top) : rt.candidates ≠ [] := by
  intro empty
  unfold topRank at ranked
  rw [empty, List.getElem?_nil] at ranked
  cases ranked

namespace Consensus

def TurnOpen (cs : Consensus) : Prop :=
  cs.blocksBySameFormulator < cs.maxBlocksPerFormulator

variable {cs : Consensus}

theorem TurnOpen.limit_pos (opened : cs.TurnOpen) : 0 < cs.maxBlocksPerFormulator :=
  UInt32.lt_iff_toNat_lt.mpr (Nat.lt_of_le_of_lt (Nat.zero_le _) (UInt32.lt_iff_toNat_lt.mp opened))

theorem forwardMissed_open {cs' : Consensus} {timeoutCount : UInt32} (opened : cs.TurnOpen)
    (candidates : cs.rt.candidates ≠ []) (forwarded : cs.forwardMissed timeoutCount = .ok cs') :
    cs'.TurnOpen ∧ cs'.rt.candidates ≠ [] := by
  unfold forwardMissed at forwarded
  split at forwarded
  · split at forwarded
    · cases forwarded
    rename_i rt moved
    cases forwarded
    refine ⟨opened.limit_pos, ?_⟩
    unfold RankTable.forwardCandidates at moved
    split at moved
    · cases moved
    cases moved
    intro (empty : RankTable.forwardCandidate^[timeoutCount.toNat] cs.rt.candidates = [])
    have none := RankTable.length_forwardCandidate_iterate cs.rt.candidates timeoutCount.toNat
    rw [empty, List.length_nil] at none
    exact candidates (List.length_eq_zero_iff.mp none.symm)
  · cases forwarded
    exact ⟨opened, candidates⟩

theorem forwardTurn_open (opened : cs.TurnOpen) (candidates : cs.rt.candidates ≠ [])
    (headerHash : Hash256) : (cs.forwardTurn headerHash).2.TurnOpen := by
  unfold forwardTurn
  dsimp only
  split
  · unfold RankTable.forwardTop
    split
    · rename_i failed
      split at failed
      · rename_i empty
        exact absurd empty candidates
      · cases failed
    · exact opened.limit_pos
  · rename_i below
    exact UInt32.not_le.mp below

variable [HashFunction] [Account Acc] [FormulatorAccount Acc] [Msgpack] [Codec] [HeaderCodec]

theorem onSaveData_open (opened : cs.TurnOpen) (candidates : cs.rt.candidates ≠ [])
    (b : Block Tx) (targetHeight : UInt32) (top : ContextData Acc Ev) :
    (cs.onSaveData b targetHeight top).2.TurnOpen := by
  unfold onSaveData
  split
  · exact opened
  split
  · exact opened
  rename_i missed forwarded
  obtain ⟨opened', candidates'⟩ := forwardMissed_open opened candidates forwarded
  have turn := forwardTurn_open opened' candidates' b.header.hash
  split <;> rename_i ended <;> rw [ended] at turn
  · exact turn
  · dsimp only
    split <;> exact turn

end Consensus

namespace Ledger

variable [Account Acc] [Event Ev] [Base58] [HashFunction] [Msgpack] [HeaderCodec] [AccountCodec Acc]
  [TxOutCodec] [EventCodec Ev] [FormulatorAccount Acc] [Codec] {lg : Ledger Tx}

theorem connectBlockWithContext_open (opened : lg.cs.TurnOpen)
    (candidates : lg.cs.rt.candidates ≠ []) (cn : Chain Acc Ev Tx) (b : Block Tx)
    (ctx : Context Acc Ev) : (lg.connectBlockWithContext cn b ctx).2.cs.TurnOpen := by
  unfold connectBlockWithContext
  dsimp only
  split
  · exact opened
  · exact Consensus.onSaveData_open opened candidates b _ _

variable [Transaction Acc Ev Tx]

theorem connectBlock_open (opened : lg.cs.TurnOpen) (cn : Chain Acc Ev Tx)
    (b : Block Tx) (sp : Option SignerProvider) : (lg.connectBlock cn b sp).2.cs.TurnOpen := by
  unfold connectBlock
  split
  · exact opened
  split
  · exact opened
  rename_i valid
  obtain ⟨_, _, _, _, _, ranked, _⟩ := Consensus.validateSignature_ok.mp valid
  split
  · exact opened
  · exact connectBlockWithContext_open opened (RankTable.topRank_candidates ranked) cn b _

/-- The chains that a node is started on: no block has been counted at the genesis, and
blocks have been connected or refused since. A restart loads the consensus as it was. -/
inductive Grown (cn : Chain Acc Ev Tx) (maxBlocksPerFormulator : UInt32) : Ledger Tx → Prop
  | genesis {lg : Ledger Tx} (limit : lg.cs.maxBlocksPerFormulator = maxBlocksPerFormulator)
      (first : lg.cs.blocksBySameFormulator = 0) : Grown cn maxBlocksPerFormulator lg
  | connect {lg : Ledger Tx} (grown : Grown cn maxBlocksPerFormulator lg) (b : Block Tx)
      (sp : Option SignerProvider) : Grown cn maxBlocksPerFormulator (lg.connectBlock cn b sp).2

theorem Grown.turnOpen {cn : Chain Acc Ev Tx} {maxBlocksPerFormulator : UInt32}
    (positive : 0 < maxBlocksPerFormulator) (grown : Grown cn maxBlocksPerFormulator lg) :
    lg.cs.TurnOpen := by
  induction grown with
  | genesis limit first =>
    unfold Consensus.TurnOpen
    rw [limit, first]
    exact positive
  | connect _ b sp ih => exact connectBlock_open ih cn b sp

end Ledger

end Fleta.Pof
