import Fleta.RankRotation
import Fleta.TurnContinuity

/-!
# What a block leaves in the rank table

Once a block has got as far as the rank table, the table or the count of blocks is not what it
was: a missed turn raises a phase, a turn that goes on is counted, and one that ends raises the
height of the table. The update by the accounts of the block does not take that back. It keeps
the ranks of an address, drops them, or enters another key.
-/

namespace Fleta.Pof

open List

variable {Acc Ev Tx : Type}

namespace RankTable

def ranksOf (addr : Address) (ranks : List Rank) : List Rank :=
  ranks.filter fun s => s.address == addr

variable {addr : Address} {ranks : List Rank}

theorem ranksOf_eq_nil : ranksOf addr ranks = [] ↔ addr ∉ ranks.map Rank.address := by
  simp only [ranksOf, filter_eq_nil_iff, beq_iff_eq, mem_map, not_exists, not_and]

theorem rankOf_eq_head (addr : Address) (rt : RankTable) :
    rt.rankOf addr = (ranksOf addr rt.candidates).head? :=
  (head?_filter ..).symm

theorem ranksOf_insert_other {s : Rank} (other : s.address ≠ addr)
    (ranks : List Rank) : ranksOf addr (insertRankToList ranks s) = ranksOf addr ranks := by
  have dropped : (s.address == addr) = false := beq_false_of_ne other
  unfold ranksOf insertRankToList
  rw [filter_append, filter_cons, dropped, if_neg Bool.false_ne_true,
    ← filter_append, take_append_drop]

theorem ranksOf_insert_own {s : Rank} (absent : ranksOf s.address ranks = []) :
    ranksOf s.address (insertRankToList ranks s) = [s] := by
  have perm := (insertRankToList_perm ranks s).filter fun r => r.address == s.address
  rw [filter_cons, if_pos (beq_self_eq_true _)] at perm
  exact perm_singleton.mp (absent ▸ perm)

theorem ranksOf_removeRank_other {gone : Address} (other : gone ≠ addr) (rt : RankTable) :
    ranksOf addr (rt.removeRank gone).candidates = ranksOf addr rt.candidates := by
  rw [ranksOf, removeRank, filter_filter]
  apply filter_congr
  intro s _
  by_cases own : s.address = addr
  · have kept : s.address ≠ gone := fun same => other (same.symm.trans own)
    rw [bne_iff_ne.mpr kept, Bool.and_true]
  · rw [beq_false_of_ne own, Bool.false_and]

theorem ranksOf_removeRank_own (addr : Address) (rt : RankTable) :
    ranksOf addr (rt.removeRank addr).candidates = [] := by
  rw [ranksOf_eq_nil, removeRank, mem_map]
  rintro ⟨s, listed, own⟩
  exact bne_iff_ne.mp (mem_filter.mp listed).2 own

theorem perm_of_ranksOf {ranks' : List Rank}
    (same : ∀ addr, ranksOf addr ranks = ranksOf addr ranks') : ranks.Perm ranks' := by
  rw [perm_iff_count]
  intro r
  have own : ∀ list : List Rank, count r (ranksOf r.address list) = count r list :=
    fun list => count_filter (beq_self_eq_true r.address)
  rw [← own ranks, same, own]

theorem phaseSum_forwardCandidate (some : ranks ≠ []) :
    phaseSum (forwardCandidate ranks) % 2 ^ 32 = (phaseSum ranks + 2) % 2 ^ 32 := by
  cases ranks with
  | nil => exact absurd rfl some
  | cons m rest =>
    rw [forwardCandidate, phaseSum_insert]
    simp only [phaseSum, map_cons, sum_cons, UInt32.toNat_add]
    have two : (2 : UInt32).toNat = 2 := rfl
    omega

theorem phaseSum_forwardCandidate_iterate (some : ranks ≠ []) (moves : Nat) :
    phaseSum (forwardCandidate^[moves] ranks) % 2 ^ 32 = (phaseSum ranks + 2 * moves) % 2 ^ 32 := by
  induction moves with
  | zero => rfl
  | succ moves ih =>
    have left : forwardCandidate^[moves] ranks ≠ [] := by
      rw [← length_pos_iff, length_forwardCandidate_iterate]
      exact length_pos_iff.mpr some
    rw [Function.iterate_succ_apply', phaseSum_forwardCandidate left]
    omega

end RankTable

namespace Consensus

open RankTable

/-- What an update leaves of the ranks of an address: all of them, none, or one with another
key. -/
def Traced (addr : Address) (ranks ranks' : List Rank) : Prop :=
  ranksOf addr ranks' = ranksOf addr ranks ∨ ∀ r rest, ranksOf addr ranks = r :: rest →
      ranksOf addr ranks' = [] ∨ ∃ s, ranksOf addr ranks' = [s] ∧ s.publicHash ≠ r.publicHash

variable {addr : Address} {ranks ranks' : List Rank}

theorem Traced.gone (gone : ranksOf addr ranks' = []) : Traced addr ranks ranks' :=
  .inr fun _ _ _ => .inl gone

theorem Traced.absent (none : ranksOf addr ranks = []) : Traced addr ranks ranks' :=
  .inr fun _ _ some => absurd (none.symm.trans some) (cons_ne_nil _ _).symm

theorem Traced.drop {mid : List Rank} (traced : Traced addr ranks mid)
    (rest : ranksOf addr ranks' = ranksOf addr mid ∨ ranksOf addr ranks' = []) :
    Traced addr ranks ranks' := by
  rcases rest with same | gone
  · rwa [Traced, same]
  · exact .gone gone

theorem Traced.back {before : List Rank} (traced : Traced addr ranks before)
    (keys : (formulators ranks).Perm (formulators before)) :
    ranksOf addr before = ranksOf addr ranks := by
  have listed : addr ∈ ranks.map Rank.address ↔ addr ∈ before.map Rank.address := by
    rw [addresses_eq, addresses_eq, (keys.map Prod.fst).mem_iff]
  rcases traced with same | changed
  · exact same
  cases own : ranksOf addr ranks with
  | nil =>
    rw [ranksOf_eq_nil, listed] at own
    exact ranksOf_eq_nil.mpr own
  | cons r rest =>
    have ranked : ranksOf addr before ≠ [] := by
      rw [Ne, ranksOf_eq_nil, ← listed, ← ranksOf_eq_nil, own]
      exact cons_ne_nil r rest
    rcases changed r rest own with gone | ⟨s, single, other⟩
    · exact absurd gone ranked
    -- The one rank that is left has the key of the first that was there.
    have perm := keys.filter fun entry => entry.1 == addr
    have project : ∀ list : List Rank, (formulators list).filter (fun entry => entry.1 == addr) =
        formulators (ranksOf addr list) := fun list => filter_map
    rw [project, project, own, single] at perm
    have alone := perm_singleton.mp perm
    exact absurd (congrArg Prod.snd (cons.inj alone).1).symm other

variable {s : Rank}

theorem addRank_other (other : s.address ≠ addr) (rt : RankTable) :
    ranksOf addr (rt.addRank s).2.candidates = ranksOf addr rt.candidates := by
  unfold addRank
  split
  · rfl
  split
  · rfl
  · exact ranksOf_insert_other other _

variable {rt : RankTable}

theorem addRank_own (absent : ranksOf s.address rt.candidates = []) :
    ranksOf s.address (rt.addRank s).2.candidates = [] ∨
      ranksOf s.address (rt.addRank s).2.candidates = [s] := by
  unfold addRank
  split
  · exact .inl absent
  split
  · exact .inl absent
  · exact .inr (ranksOf_insert_own absent)

theorem addRank_taken (taken : ranksOf s.address rt.candidates ≠ []) : (rt.addRank s).2 = rt := by
  unfold addRank
  split
  · rfl
  split
  · rfl
  · rename_i absent
    rw [rankOf_isSome_iff, ← ranksOf_eq_nil] at absent
    exact absurd absent taken

theorem addRank_traced (s : Rank) (rt : RankTable) :
    Traced s.address rt.candidates (rt.addRank s).2.candidates := by
  by_cases absent : ranksOf s.address rt.candidates = []
  · exact .absent absent
  · rw [addRank_taken absent]
    exact .inl rfl

section Update

variable [HashFunction] (targetHeight phase : UInt32)

theorem updateFormulator_other {addr key : Address} (other : key ≠ addr) (own : Address)
    (info : FormulatorInfo) (rt : RankTable) :
    ranksOf addr (updateFormulator targetHeight phase key own info rt).2.candidates =
      ranksOf addr rt.candidates := by
  have entered := addRank_other (s := rankFor key info phase) other
  unfold updateFormulator
  split
  · split
    · exact entered rt
    · rfl
  split
  · split
    · exact ranksOf_removeRank_other other rt
    split
    · exact (entered _).trans (ranksOf_removeRank_other other rt)
    · rfl
  · split
    · exact entered rt
    · rfl

theorem updateFormulator_traced (addr own : Address) (info : FormulatorInfo) (rt : RankTable) :
    Traced addr rt.candidates
      (updateFormulator targetHeight phase addr own info rt).2.candidates := by
  have entered := addRank_traced (rankFor addr info phase) rt
  unfold updateFormulator
  split
  · split
    · exact entered
    · exact .inl rfl
  split
  · rename_i r ranked
    split
    · exact .gone (ranksOf_removeRank_own addr rt)
    split
    · rename_i renewed
      rcases addRank_own (s := rankFor addr info phase) (ranksOf_removeRank_own addr rt) with
        gone | single
      · exact .gone gone
      · refine .inr fun first rest listed => .inr ⟨_, single, ?_⟩
        rw [rankOf_eq_head, listed] at ranked
        cases ranked
        exact Ne.symm renewed
    · exact .inl rfl
  · split
    · exact entered
    · exact .inl rfl

variable [Account Acc] [FormulatorAccount Acc] {accounts : List (Address × Acc)}

theorem updateFormulators_other {addr : Address}
    (absent : addr ∉ accounts.map Prod.fst) (rt : RankTable) :
    ranksOf addr (updateFormulators targetHeight phase accounts rt).2.candidates =
      ranksOf addr rt.candidates := by
  induction accounts generalizing rt with
  | nil => rfl
  | cons entry rest ih =>
    rw [map_cons, mem_cons, not_or] at absent
    rw [updateFormulators]
    split
    · exact ih absent.2 rt
    rename_i info _
    have first := updateFormulator_other targetHeight phase (Ne.symm absent.1)
      (Account.address entry.2) info rt
    split
    · rename_i failed
      rwa [failed] at first
    · rename_i updated
      rw [updated] at first
      exact (ih absent.2 _).trans first

theorem updateFormulators_traced
    (distinct : (accounts.map Prod.fst).Nodup) (addr : Address) (rt : RankTable) :
    Traced addr rt.candidates
      (updateFormulators targetHeight phase accounts rt).2.candidates := by
  induction accounts generalizing rt with
  | nil => exact .inl rfl
  | cons entry rest ih =>
    rw [map_cons, nodup_cons] at distinct
    rw [updateFormulators]
    split
    · exact ih distinct.2 rt
    rename_i info _
    by_cases here : entry.1 = addr
    · have first := updateFormulator_traced targetHeight phase addr (Account.address entry.2) info rt
      rw [here] at distinct ⊢
      split
      · rename_i failed
        rwa [failed] at first
      · rename_i updated
        rw [updated] at first
        exact first.drop (.inl (updateFormulators_other targetHeight phase distinct.1 _))
    · have first := updateFormulator_other targetHeight phase here (Account.address entry.2) info rt
      split
      · rename_i failed
        rw [failed] at first
        exact .inl first
      · rename_i updated
        rw [updated] at first
        rw [Traced, ← first]
        exact ih distinct.2 _

omit [HashFunction] [Account Acc] [FormulatorAccount Acc] in
theorem ranksOf_removeAll (addr : Address) (removed : List Address) (rt : RankTable) :
    ranksOf addr (removed.foldl (fun rt gone => rt.removeRank gone) rt).candidates =
        ranksOf addr rt.candidates ∨
      ranksOf addr (removed.foldl (fun rt gone => rt.removeRank gone) rt).candidates = [] := by
  induction removed generalizing rt with
  | nil => exact .inl rfl
  | cons gone rest ih =>
    rw [foldl_cons]
    by_cases own : gone = addr
    · rw [own]
      have absent := ranksOf_removeRank_own addr rt
      exact .inr ((ih _).elim (fun kept => kept.trans absent) id)
    · rw [← ranksOf_removeRank_other own rt]
      exact ih _

theorem updateFormulatorList_traced (top : ContextData Acc Ev) (addr : Address) (rt : RankTable) :
    Traced addr rt.candidates (updateFormulatorList targetHeight top rt).2.candidates := by
  have loop := updateFormulators_traced targetHeight (rt.smallestPhase + 2)
    (SortedMap.each_all_keys_nodup top.accountMap) addr rt
  unfold updateFormulatorList
  split
  · rename_i failed
    rwa [failed] at loop
  · rename_i updated
    rw [updated] at loop
    have dropped := loop.drop (ranksOf_removeAll addr
      (top.deletedAccountMap.eachAll.filterMap fun entry =>
        (FormulatorAccount.formulator entry.2).map fun _ => Account.address entry.2) _)
    dsimp only
    split <;> exact dropped

theorem updateFormulatorList_perm {targetHeight : UInt32} {top : ContextData Acc Ev}
    {rt : RankTable} {before : List Rank} (keys : (formulators rt.candidates).Perm (formulators before))
    (back : (updateFormulatorList targetHeight top rt).2.candidates = before) :
    before.Perm rt.candidates := by
  apply perm_of_ranksOf
  intro addr
  have traced := updateFormulatorList_traced targetHeight top addr rt
  rw [back] at traced
  exact traced.back keys

end Update

variable [HashFunction] [Account Acc] [FormulatorAccount Acc] [Msgpack] [Codec] [HeaderCodec]
  {cs : Consensus} {b : Block Tx} {timeoutCount : UInt32} (targetHeight : UInt32)
  (top : ContextData Acc Ev)

/-- What the consensus holds after the missed turns: a turn that ends raises the height of the
table, and one that goes on is counted before the accounts are looked at. -/
theorem onSaveData_trace {missed : Consensus}
    (decoded : decodeConsensusData b.header.consensusData = .ok timeoutCount)
    (forwarded : cs.forwardMissed timeoutCount = .ok missed) :
    (cs.onSaveData b targetHeight top).2.rt.height = missed.rt.height + 1 ∨
      (cs.onSaveData b targetHeight top).2.blocksBySameFormulator =
          missed.blocksBySameFormulator + 1 ∧
        ((cs.onSaveData b targetHeight top).2.rt = missed.rt ∨
          (cs.onSaveData b targetHeight top).2.rt =
            (updateFormulatorList targetHeight top missed.rt).2) := by
  rw [onSaveData, decoded]
  dsimp only
  rw [forwarded]
  dsimp only [forwardTurn]
  split
  · rename_i err turned ended
    split at ended
    · split at ended
      · cases ended
        exact .inr ⟨rfl, .inl rfl⟩
      · cases ended
    · cases ended
  · rename_i turned ended
    split at ended
    · split at ended
      · cases ended
      rename_i rt forwardedTop
      cases ended
      have height : rt.height = missed.rt.height + 1 := by
        unfold forwardTop at forwardedTop
        split at forwardedTop
        · cases forwardedTop
        · cases forwardedTop
          rfl
      have kept := (updateFormulatorList_updated targetHeight top rt).height.trans height
      left
      split <;> exact kept
    · cases ended
      right
      split <;> exact ⟨rfl, .inr rfl⟩

theorem onSaveData_changes (decoded : decodeConsensusData b.header.consensusData = .ok timeoutCount)
    (reached : timeoutCount = 0 ∨ timeoutCount.toNat < cs.rt.candidates.length)
    (few : cs.rt.candidates.length ≤ 2 ^ 31)
    (sameTable : (cs.onSaveData b targetHeight top).2.rt = cs.rt)
    (sameBlocks : (cs.onSaveData b targetHeight top).2.blocksBySameFormulator =
      cs.blocksBySameFormulator) : False := by
  have grows : ∀ n : UInt32, n ≠ n + 1 := by
    intro n same
    have added := congrArg UInt32.toNat same
    rw [UInt32.toNat_add] at added
    have one : (1 : UInt32).toNat = 1 := rfl
    omega
  by_cases none : timeoutCount = 0
  · have forwarded : cs.forwardMissed timeoutCount = .ok cs := by
      rw [none]
      rfl
    rcases onSaveData_trace targetHeight top decoded forwarded with ended | ⟨counted, _⟩
    · rw [sameTable] at ended
      exact grows _ ended
    · rw [sameBlocks] at counted
      exact grows _ counted
  have fewer := reached.resolve_left none
  rcases onSaveData_trace targetHeight top decoded (forwardMissed_eq fewer) with
    ended | ⟨_, traced⟩
  · rw [sameTable] at ended
    exact grows _ ended
  have perm : cs.rt.candidates.Perm (forwardCandidate^[timeoutCount.toNat] cs.rt.candidates) := by
    rw [sameTable] at traced
    rcases traced with same | updated
    · exact .of_eq (congrArg RankTable.candidates same)
    · exact updateFormulatorList_perm (formulators_forwardCandidate_iterate _ _)
        (congrArg RankTable.candidates updated).symm
  -- The missed turns have raised the phases by less than the range of a phase.
  have some : cs.rt.candidates ≠ [] := length_pos_iff.mp (by omega)
  have raised := phaseSum_forwardCandidate_iterate some timeoutCount.toNat
  have sum : phaseSum cs.rt.candidates = phaseSum (forwardCandidate^[timeoutCount.toNat] _) :=
    (perm.map _).sum_nat
  have positive : timeoutCount.toNat ≠ 0 := fun zero => none (UInt32.toNat_inj.mp zero)
  omega

end Consensus

end Fleta.Pof
