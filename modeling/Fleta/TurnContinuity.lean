import Fleta.RankInvariant

/-!
# Who is on top after a missed turn

A block behind `t` missed turns is made by the candidate `TopRank(t)`. Saving it raises the
candidates before the generator by two phases, one after the other. The generator comes to
the top exactly when each of them is raised behind it: a candidate that is raised to a place
before the generator uses up a move, and so some candidate stays before it.
-/

namespace Fleta.Pof

open Rank List

variable {Acc Ev Tx : Type}

namespace Rank

def raised (rank : Rank) : Rank := { rank with phase := rank.phase + 2 }

end Rank

namespace RankTable

section Insert

variable {before behind : List Rank} {g s : Rank}

theorem insert_behind (ordered : Ordered (before ++ g :: behind))
    (fresh : s.address ∉ (before ++ g :: behind).map address) (above : g.less s = true) :
    insertRankToList (before ++ g :: behind) s = before ++ g :: insertRankToList behind s := by
  have sorted := ordered.sorted
  rw [pairwise_append, pairwise_cons] at sorted
  have perm : (insertRankToList (before ++ g :: behind) s).Perm
      (before ++ g :: insertRankToList behind s) := by
    refine (insertRankToList_perm _ s).trans (List.Perm.symm ?_)
    have moved := (insertRankToList_perm behind s).cons g
    exact (moved.append_left before).trans
      (((List.Perm.swap s g behind).append_left before).trans perm_middle)
  have target := ordered.insert fresh
  apply Ordered.eq_of_perm target _ perm
  refine ⟨?_, (perm.map address).nodup_iff.mp target.distinct⟩
  rw [pairwise_append, pairwise_cons]
  have tail : Ordered behind :=
    ordered.sublist ((sublist_cons_self g behind).trans (sublist_append_right _ _))
  have new : s.address ∉ behind.map address := by
    intro listed
    apply fresh
    rw [map_append, map_cons]
    exact mem_append_right _ (mem_cons_of_mem _ listed)
  refine ⟨sorted.1, ⟨?_, (tail.insert new).sorted⟩, ?_⟩
  · intro r listed
    rcases mem_insertRankToList.mp listed with rfl | old
    · exact above
    · exact sorted.2.1.1 r old
  · intro r early r' late
    have below : r.less g = true := sorted.2.2 r early g mem_cons_self
    rcases mem_cons.mp late with rfl | later
    · exact below
    · rcases mem_insertRankToList.mp later with rfl | old
      · exact less_trans _ _ _ below above
      · exact sorted.2.2 r early r' (mem_cons_of_mem _ old)

theorem insert_before (ordered : Ordered (before ++ g :: behind))
    (fresh : s.address ∉ (before ++ g :: behind).map address) (below : s.less g = true) :
    insertRankToList (before ++ g :: behind) s = insertRankToList before s ++ g :: behind := by
  have sorted := ordered.sorted
  rw [pairwise_append, pairwise_cons] at sorted
  have perm : (insertRankToList (before ++ g :: behind) s).Perm
      (insertRankToList before s ++ g :: behind) := by
    refine (insertRankToList_perm _ s).trans (List.Perm.symm ?_)
    exact (insertRankToList_perm before s).append_right (g :: behind)
  have target := ordered.insert fresh
  apply Ordered.eq_of_perm target _ perm
  refine ⟨?_, (perm.map address).nodup_iff.mp target.distinct⟩
  rw [pairwise_append, pairwise_cons]
  have front : Ordered before := ordered.sublist (sublist_append_left _ _)
  have new : s.address ∉ before.map address := by
    intro listed
    apply fresh
    rw [map_append]
    exact mem_append_left _ listed
  refine ⟨(front.insert new).sorted, sorted.2.1, ?_⟩
  intro r early r' late
  have above : ∀ r ∈ insertRankToList before s, r.less g = true := by
    intro r listed
    rcases mem_insertRankToList.mp listed with rfl | old
    · exact below
    · exact sorted.2.2 r old g mem_cons_self
  rcases mem_cons.mp late with rfl | later
  · exact above r early
  · exact less_trans _ _ _ (above r early) (sorted.2.1.1 r' later)

end Insert

section Moves

variable {g : Rank} {before behind : List Rank}

theorem forwardCandidate_split {c : Rank} (ordered : Ordered (c :: before ++ g :: behind)) :
    (g.less c.raised = true ∧
      forwardCandidate (c :: before ++ g :: behind) =
        before ++ g :: insertRankToList behind c.raised) ∨
    (c.raised.less g = true ∧
      forwardCandidate (c :: before ++ g :: behind) =
        insertRankToList before c.raised ++ g :: behind) := by
  have rest : Ordered (before ++ g :: behind) := ordered.tail
  have fresh : c.raised.address ∉ (before ++ g :: behind).map address :=
    (nodup_cons.mp ordered.distinct).1
  have other : g.address ≠ c.raised.address := by
    intro same
    apply fresh
    rw [← same]
    exact mem_map_of_mem (mem_append_right _ mem_cons_self)
  rcases less_total other with above | below
  · exact .inl ⟨above, insert_behind rest fresh above⟩
  · exact .inr ⟨below, insert_before rest fresh below⟩

theorem stays_behind (moves : Nat)
    (ordered : Ordered (before ++ g :: behind)) (fewer : moves < before.length) :
    ∃ before' behind', forwardCandidate^[moves] (before ++ g :: behind) = before' ++ g :: behind' ∧
      before' ≠ [] := by
  induction moves generalizing before behind with
  | zero => exact ⟨before, behind, rfl, ne_nil_of_length_pos fewer⟩
  | succ moves ih =>
    cases before with
    | nil => exact absurd fewer (Nat.not_lt_zero _)
    | cons c before =>
      rw [length_cons] at fewer
      rw [Function.iterate_succ_apply]
      have next := forwardCandidate_ordered ordered
      rcases forwardCandidate_split ordered with ⟨_, moved⟩ | ⟨_, moved⟩
      · rw [moved] at next ⊢
        exact ih next (by omega)
      · rw [moved] at next ⊢
        apply ih next
        rw [length_insertRankToList]
        omega

/-- The generator comes to the top exactly when every candidate before it is raised behind
it. -/
theorem comes_to_top_iff (ordered : Ordered (before ++ g :: behind)) :
    (∃ top rest, forwardCandidate^[before.length] (before ++ g :: behind) = top :: rest ∧
      top.address = g.address) ↔ ∀ c ∈ before, g.less c.raised = true := by
  induction before generalizing behind with
  | nil =>
    constructor
    · intro _ c listed
      cases listed
    · intro _
      exact ⟨g, behind, rfl, rfl⟩
  | cons c before ih =>
    rw [length_cons, Function.iterate_succ_apply, forall_mem_cons]
    have next := forwardCandidate_ordered ordered
    rcases forwardCandidate_split ordered with ⟨above, moved⟩ | ⟨below, moved⟩
    · rw [moved] at next ⊢
      rw [ih next]
      exact ⟨fun rest => ⟨above, rest⟩, fun both => both.2⟩
    · rw [moved] at next ⊢
      have fewer : before.length < (insertRankToList before c.raised).length := by
        rw [length_insertRankToList]
        omega
      constructor
      · rintro ⟨top, rest, first, same⟩
        -- Some candidate is still before the generator, and it is another one.
        obtain ⟨before', behind', run, some⟩ := stays_behind before.length next fewer
        obtain ⟨first', before'', rfl⟩ := exists_cons_of_ne_nil some
        rw [run] at first
        obtain ⟨rfl, rfl⟩ := cons.inj first
        have distinct : Ordered (first' :: before'' ++ g :: behind') := by
          rw [← run]
          exact forwardCandidate_iterate_ordered next before.length
        refine absurd ?_ (nodup_cons.mp distinct.distinct).1
        rw [same]
        exact mem_map_of_mem (mem_append_right _ mem_cons_self)
      · rintro ⟨above, _⟩
        rw [less_asymm below] at above
        cases above

end Moves

def formulators (ranks : List Rank) : List (Address × PublicHash) :=
  ranks.map fun r => (r.address, r.publicHash)

variable {rt : RankTable} {addr : Address}

theorem publicHash_iff (ordered : Ordered rt.candidates) {publicHash : PublicHash} :
    (rt.rankOf addr).map Rank.publicHash = some publicHash ↔
      (addr, publicHash) ∈ formulators rt.candidates := by
  rw [Option.map_eq_some_iff, formulators, mem_map]
  constructor
  · rintro ⟨r, found, rfl⟩
    obtain ⟨listed, rfl⟩ := rankOf_some found
    exact ⟨r, listed, rfl⟩
  · rintro ⟨r, listed, pair⟩
    obtain ⟨rfl, rfl⟩ := Prod.mk.inj pair
    cases found : rt.rankOf r.address with
    | none =>
      have absent := find?_eq_none.mp found r listed
      exact absurd (beq_self_eq_true r.address) absent
    | some s =>
      obtain ⟨member, address⟩ := rankOf_some found
      have same : s = r := inj_on_of_nodup_map ordered.distinct member listed address
      exact ⟨s, rfl, by rw [same]⟩

theorem rankOf_eq_none_iff : rt.rankOf addr = none ↔ addr ∉ rt.candidates.map address := by
  rw [← rankOf_isSome_iff, Option.not_isSome_iff_eq_none]

variable (ranks : List Rank)

theorem formulators_forwardCandidate :
    (formulators (forwardCandidate ranks)).Perm (formulators ranks) := by
  cases ranks with
  | nil => exact .refl _
  | cons top rest => exact (insertRankToList_perm rest top.raised).map _

theorem formulators_forwardCandidate_iterate (moves : Nat) :
    (formulators (forwardCandidate^[moves] ranks)).Perm (formulators ranks) := by
  induction moves with
  | zero => exact .refl _
  | succ moves ih =>
    rw [Function.iterate_succ_apply']
    exact (formulators_forwardCandidate _).trans ih

end RankTable

namespace Consensus

open RankTable

section Unchanged

variable [Account Acc] [FormulatorAccount Acc]

/-- A block changes no formulator: the activated ones of its top layer are not new and are
ranked with their keys, and none of the others nor of the deleted ones is ranked. -/
structure KeepsFormulators (targetHeight : UInt32) (top : ContextData Acc Ev) (ranks : List Rank) :
    Prop where
  activated : ∀ addr acc info, top.accountMap.get addr = some acc →
    FormulatorAccount.formulator acc = some info → info.isActivated = true →
      (Account.address acc).height ≠ targetHeight ∧ (addr, info.generatorHash) ∈ formulators ranks
  inactive : ∀ addr acc info, top.accountMap.get addr = some acc →
    FormulatorAccount.formulator acc = some info → info.isActivated = false →
      addr ∉ ranks.map address
  deleted : ∀ addr acc info, top.deletedAccountMap.get addr = some acc →
    FormulatorAccount.formulator acc = some info → Account.address acc ∉ ranks.map address

theorem addresses_eq (ranks : List Rank) :
    ranks.map address = (formulators ranks).map Prod.fst := by
  rw [formulators, map_map]
  rfl

variable {targetHeight : UInt32} {top : ContextData Acc Ev}

theorem KeepsFormulators.congr
    {ranks ranks' : List Rank} (keeps : KeepsFormulators targetHeight top ranks)
    (same : (formulators ranks').Perm (formulators ranks)) :
    KeepsFormulators targetHeight top ranks' where
  activated addr acc info found isFormulator active :=
    ⟨(keeps.activated addr acc info found isFormulator active).1,
      same.mem_iff.mpr (keeps.activated addr acc info found isFormulator active).2⟩
  inactive addr acc info found isFormulator active := by
    rw [addresses_eq, (same.map Prod.fst).mem_iff, ← addresses_eq]
    exact keeps.inactive addr acc info found isFormulator active
  deleted addr acc info found isFormulator := by
    rw [addresses_eq, (same.map Prod.fst).mem_iff, ← addresses_eq]
    exact keeps.deleted addr acc info found isFormulator

variable {rt : RankTable}

theorem removeRank_absent {addr : Address}
    (absent : addr ∉ rt.candidates.map address) : rt.removeRank addr = rt := by
  have all : rt.candidates.filter (fun s => s.address != addr) = rt.candidates := by
    rw [filter_eq_self]
    intro s member
    rw [bne_iff_ne]
    rintro rfl
    exact absent (mem_map_of_mem member)
  rw [removeRank, all]

variable [HashFunction]

theorem updateFormulators_keeps
    (keeps : KeepsFormulators targetHeight top rt.candidates) (ordered : Ordered rt.candidates)
    (phase : UInt32) {accounts : List (Address × Acc)}
    (listed : ∀ entry ∈ accounts, top.accountMap.get entry.1 = some entry.2) :
    updateFormulators targetHeight phase accounts rt = (.ok (), rt) := by
  induction accounts with
  | nil => rfl
  | cons entry rest ih =>
    obtain ⟨addr, acc⟩ := entry
    have found := listed (addr, acc) mem_cons_self
    have later := ih fun entry member => listed entry (mem_cons_of_mem _ member)
    rw [updateFormulators]
    split
    · exact later
    · rename_i info isFormulator
      have unchanged : updateFormulator targetHeight phase addr (Account.address acc) info rt =
          (.ok (), rt) := by
        unfold updateFormulator
        cases active : info.isActivated with
        | true =>
          obtain ⟨old, known⟩ := keeps.activated addr acc info found isFormulator active
          obtain ⟨r, ranked, own⟩ := Option.map_eq_some_iff.mp ((publicHash_iff ordered).mpr known)
          simp [old, ranked, own]
        | false =>
          have absent := keeps.inactive addr acc info found isFormulator active
          simp [rankOf_eq_none_iff.mpr absent]
      rw [unchanged]
      exact later

theorem updateFormulatorList_keeps (keeps : KeepsFormulators targetHeight top rt.candidates)
    (ordered : Ordered rt.candidates) (some : rt.candidates ≠ []) :
    updateFormulatorList targetHeight top rt = (.ok (), rt) := by
  have loop : updateFormulators targetHeight (rt.smallestPhase + 2) top.accountMap.eachAll rt =
      (.ok (), rt) :=
    updateFormulators_keeps keeps ordered _ fun entry listed =>
      (SortedMap.mem_eachAll _ _ _).mp listed
  have removed : ∀ addrs : List Address, (∀ addr ∈ addrs, addr ∉ rt.candidates.map address) →
      addrs.foldl (fun rt addr => rt.removeRank addr) rt = rt := by
    intro addrs absent
    induction addrs with
    | nil => rfl
    | cons addr rest ih =>
      rw [foldl_cons, removeRank_absent (absent addr mem_cons_self)]
      exact ih fun addr later => absent addr (mem_cons_of_mem _ later)
  unfold updateFormulatorList
  rw [loop]
  dsimp only
  rw [removed, if_neg]
  · rw [candidateCount, length_eq_zero_iff]
    exact some
  · intro addr listed
    obtain ⟨entry, member, made⟩ := mem_filterMap.mp listed
    obtain ⟨info, isFormulator, rfl⟩ := Option.map_eq_some_iff.mp made
    exact keeps.deleted entry.1 entry.2 info ((SortedMap.mem_eachAll _ _ _).mp member) isFormulator

theorem updateFormulatorList_ordered (ordered : Ordered rt.candidates)
    (targetHeight : UInt32) (top : ContextData Acc Ev) :
    Ordered (updateFormulatorList targetHeight top rt).2.candidates :=
  (updateFormulatorList_updated targetHeight top rt).steps.ordered ordered

end Unchanged

def blocksBefore (timeoutCount : UInt32) (cs : Consensus) : UInt32 :=
  if timeoutCount > 0 then 0 else cs.blocksBySameFormulator

variable {cs : Consensus} {timeoutCount : UInt32}

theorem forwardMissed_eq (fewer : timeoutCount.toNat < cs.rt.candidates.length) :
    cs.forwardMissed timeoutCount = .ok { cs with
      blocksBySameFormulator := cs.blocksBefore timeoutCount
      rt := { cs.rt with candidates := forwardCandidate^[timeoutCount.toNat] cs.rt.candidates } } := by
  unfold forwardMissed blocksBefore
  by_cases missed : timeoutCount > 0
  · have inside : ¬timeoutCount.toNat ≥ cs.rt.candidates.length := by omega
    simp only [if_pos missed, forwardCandidates, if_neg inside]
  · have zero : timeoutCount.toNat = 0 := by
      have least : ¬(0 : UInt32).toNat < timeoutCount.toNat := fun above =>
        missed (UInt32.lt_iff_toNat_lt.mpr above)
      have value : (0 : UInt32).toNat = 0 := rfl
      omega
    simp only [if_neg missed, zero, Function.iterate_zero, id_eq]

theorem forwardMissed_ordered {cs' : Consensus}
    (ordered : Ordered cs.rt.candidates) (forwarded : cs.forwardMissed timeoutCount = .ok cs') :
    Ordered cs'.rt.candidates := by
  by_cases fewer : timeoutCount.toNat < cs.rt.candidates.length
  · rw [forwardMissed_eq fewer] at forwarded
    cases forwarded
    exact forwardCandidate_iterate_ordered ordered _
  · unfold forwardMissed forwardCandidates at forwarded
    rw [if_pos (Nat.not_lt.mp fewer)] at forwarded
    split at forwarded
    · cases forwarded
    · cases forwarded
      exact ordered

theorem forwardTurn_ordered (ordered : Ordered cs.rt.candidates) (hash : Hash256) :
    Ordered (cs.forwardTurn hash).2.rt.candidates := by
  unfold forwardTurn
  dsimp only
  split
  · split
    · exact ordered
    · rename_i rt forwarded
      cases candidates : cs.rt.candidates with
      | nil =>
        rw [forwardTop, candidates] at forwarded
        cases forwarded
      | cons first rest =>
        rw [forwardTop, candidates] at forwarded
        rw [candidates] at ordered
        cases forwarded
        exact ordered.reinsert rfl
  · exact ordered

variable [HashFunction] [Account Acc] [FormulatorAccount Acc] [Msgpack] [Codec]

theorem initGenesis_ordered (ordered : Ordered cs.rt.candidates)
    (targetHeight : UInt32) (top : ContextData Acc Ev) :
    Ordered (cs.initGenesis targetHeight top).2.rt.candidates := by
  have updated := updateFormulatorList_ordered ordered targetHeight top
  unfold initGenesis
  dsimp only
  split <;> exact updated

variable [HeaderCodec]

theorem onSaveData_moves (ordered : Ordered cs.rt.candidates) {b : Block Tx}
    {targetHeight : UInt32} {top : ContextData Acc Ev}
    (decoded : decodeConsensusData b.header.consensusData = .ok timeoutCount)
    (fewer : timeoutCount.toNat < cs.rt.candidates.length)
    (goesOn : cs.blocksBefore timeoutCount + 1 < cs.maxBlocksPerFormulator)
    (keeps : KeepsFormulators targetHeight top cs.rt.candidates) :
    ∃ data cs', cs.onSaveData b targetHeight top = (.ok data, cs') ∧
      cs'.rt.candidates = forwardCandidate^[timeoutCount.toNat] cs.rt.candidates ∧
      cs'.blocksBySameFormulator = cs.blocksBefore timeoutCount + 1 := by
  let moved : RankTable :=
    { cs.rt with candidates := forwardCandidate^[timeoutCount.toNat] cs.rt.candidates }
  have same := formulators_forwardCandidate_iterate cs.rt.candidates timeoutCount.toNat
  have some : moved.candidates ≠ [] := by
    rw [← length_pos_iff]
    rw [length_forwardCandidate_iterate]
    omega
  have updated : updateFormulatorList targetHeight top moved = (.ok (), moved) :=
    updateFormulatorList_keeps (keeps.congr same)
      (forwardCandidate_iterate_ordered ordered timeoutCount.toNat) some
  have below : ¬cs.blocksBefore timeoutCount + 1 ≥ cs.maxBlocksPerFormulator :=
    UInt32.not_le.mpr goesOn
  let after : Consensus :=
    { cs with blocksBySameFormulator := cs.blocksBefore timeoutCount + 1, rt := moved }
  refine ⟨after.buildSaveData, after, ?_, rfl, rfl⟩
  unfold onSaveData
  rw [decoded]
  dsimp only
  rw [forwardMissed_eq fewer]
  dsimp only [forwardTurn]
  rw [if_neg below]
  dsimp only
  rw [updated]

theorem onSaveData_ordered (ordered : Ordered cs.rt.candidates) (b : Block Tx)
    (targetHeight : UInt32) (top : ContextData Acc Ev) :
    Ordered (cs.onSaveData b targetHeight top).2.rt.candidates := by
  unfold onSaveData
  split
  · exact ordered
  split
  · exact ordered
  rename_i missed forwarded
  have turn := forwardTurn_ordered (forwardMissed_ordered ordered forwarded) b.header.hash
  split <;> rename_i turned
  · rwa [turned] at turn
  · rw [turned] at turn
    exact initGenesis_ordered turn targetHeight top

variable (Acc Ev Tx)

/-- The states of the consensus after the genesis: calls of `OnSaveData` for any blocks and any
top layers, also those that fail. -/
inductive Reaches : Consensus → Prop
  | genesis (maxBlocksPerFormulator : UInt32) (observerKeyMap : SortedMap PublicHash Bool)
      (targetHeight : UInt32) (top : ContextData Acc Ev) :
      Reaches (initGenesis targetHeight top ⟨maxBlocksPerFormulator, 0, observerKeyMap, .new⟩).2
  | save {cs : Consensus} (b : Block Tx) (targetHeight : UInt32) (top : ContextData Acc Ev)
      (reached : Reaches cs) : Reaches (cs.onSaveData b targetHeight top).2

variable {Acc Ev Tx}

theorem Reaches.ordered (reached : Reaches Acc Ev Tx cs) : Ordered cs.rt.candidates := by
  induction reached with
  | genesis maxBlocks keys targetHeight top => exact initGenesis_ordered .nil targetHeight top
  | save b targetHeight top reached ih => exact onSaveData_ordered ih b targetHeight top

/-- The generator of a block that does not end its turn and changes no formulator is on top
afterwards exactly when every candidate that missed its turn is raised behind it. -/
theorem turn_continues_iff {cs : Consensus} (reached : Reaches Acc Ev Tx cs) {b : Block Tx}
    {timeoutCount targetHeight : UInt32} {top : ContextData Acc Ev} {generator : Rank}
    (decoded : decodeConsensusData b.header.consensusData = .ok timeoutCount)
    (ranked : cs.rt.topRank timeoutCount.toNat = .ok generator)
    (made : b.header.generator = generator.address)
    (goesOn : cs.blocksBefore timeoutCount + 1 < cs.maxBlocksPerFormulator)
    (keeps : KeepsFormulators targetHeight top cs.rt.candidates) :
    ∃ data cs', cs.onSaveData b targetHeight top = (.ok data, cs') ∧
      ((∃ first, cs'.rt.topRank 0 = .ok first ∧ first.address = b.header.generator) ↔
        ∀ missed ∈ cs.rt.candidates.take timeoutCount.toNat,
          generator.less missed.raised = true) := by
  have place : cs.rt.candidates[timeoutCount.toNat]? = some generator := by
    unfold topRank at ranked
    split at ranked
    · cases ranked
    · rename_i found
      cases ranked
      exact found
  obtain ⟨fewer, entry⟩ := List.getElem?_eq_some_iff.mp place
  have parts : cs.rt.candidates = cs.rt.candidates.take timeoutCount.toNat ++
      generator :: cs.rt.candidates.drop (timeoutCount.toNat + 1) := by
    rw [← entry, getElem_cons_drop, take_append_drop]
  have length : (cs.rt.candidates.take timeoutCount.toNat).length = timeoutCount.toNat := by
    rw [length_take]
    omega
  have ordered := reached.ordered
  obtain ⟨data, cs', saved, candidates, _⟩ := onSaveData_moves ordered decoded fewer goesOn keeps
  have comes := comes_to_top_iff (parts ▸ ordered)
  rw [← parts, length, ← candidates] at comes
  refine ⟨data, cs', saved, ?_⟩
  rw [← comes, made]
  constructor
  · rintro ⟨first, ranked', address⟩
    cases all : cs'.rt.candidates with
    | nil =>
      rw [topRank, all] at ranked'
      cases ranked'
    | cons first' rest =>
      rw [topRank, all] at ranked'
      cases ranked'
      exact ⟨first, rest, rfl, address⟩
  · rintro ⟨first, rest, all, address⟩
    refine ⟨first, ?_, address⟩
    rw [topRank, all]
    rfl

end Consensus

end Fleta.Pof

namespace Fleta.RankInstances

open Pof Instances

def twoPhases : Pof.Consensus :=
  (Pof.Consensus.onSaveData (turnBlock 1 (.new 0 1 0) 0) 1 (layer [(1, 1, [2])])
    (Pof.Consensus.initGenesis 0 (layer [(0, 1, [1])]) ⟨10, 0, .empty, .new⟩).2).2

theorem twoPhases_reached : Pof.Consensus.Reaches SingleAccount PlainEvent SetData twoPhases :=
  .save _ 1 _ (.genesis 10 .empty 0 (layer [(0, 1, [1])]))

theorem layer_keeps (targetHeight : UInt32) (ranks : List Rank) :
    Pof.Consensus.KeepsFormulators targetHeight (layer []) ranks where
  activated addr acc info found := by
    cases found
  inactive addr acc info found := by
    cases found
  deleted addr acc info found := by
    cases found

/-- Both formulators of the genesis have the same phase, and the first one is raised behind the
second. -/
theorem genesis_turn_continues :
    ∃ data cs', Pof.Consensus.onSaveData (turnBlock 1 (.new 0 2 0) 1) 1 (layer [])
        (Pof.Consensus.initGenesis 0 (layer [(0, 1, [1]), (0, 2, [2])]) ⟨10, 0, .empty, .new⟩).2 =
          (.ok data, cs') ∧
      ((∃ first, cs'.rt.topRank 0 = .ok first ∧ first.address = .new 0 2 0) ↔
        ∀ missed ∈ (Pof.Consensus.initGenesis 0 (layer [(0, 1, [1]), (0, 2, [2])])
            ⟨10, 0, .empty, .new⟩).2.rt.candidates.take 1,
          (Rank.mk (.new 0 2 0) [2] 2 (doubleHash (Address.new 0 2 0).bytes)).less missed.raised =
            true) :=
  Pof.Consensus.turn_continues_iff
    (.genesis 10 .empty 0 (layer [(0, 1, [1]), (0, 2, [2])])) rfl (by decide +kernel) rfl
    (by decide +kernel) (layer_keeps _ _)

/-- The first formulator misses its turn. Raised to the phase of the second one it is still
before it, and takes the next turn although the second one has made one block of ten. -/
theorem turn_lost :
    Pof.Consensus.Reaches SingleAccount PlainEvent SetData twoPhases ∧
      Pof.Consensus.decodeConsensusData
        (turnBlock 2 (.new 1 1 0) 1).header.consensusData = .ok 1 ∧
      (∃ generator, twoPhases.rt.topRank 1 = .ok generator ∧ generator.address = .new 1 1 0) ∧
      twoPhases.blocksBefore 1 + 1 < twoPhases.maxBlocksPerFormulator ∧
      Pof.Consensus.KeepsFormulators 2 (layer []) twoPhases.rt.candidates ∧
      ∃ data cs', twoPhases.onSaveData (turnBlock 2 (.new 1 1 0) 1) 2 (layer []) = (.ok data, cs') ∧
        ¬∃ first, cs'.rt.topRank 0 = .ok first ∧ first.address = .new 1 1 0 := by
  have top : ((twoPhases.onSaveData (turnBlock 2 (.new 1 1 0) 1) 2 (layer [])).2.rt.topRank 0).map
      Rank.address = .ok (.new 0 1 0) := by decide +kernel
  have saved : (twoPhases.onSaveData (turnBlock 2 (.new 1 1 0) 1) 2
      (layer [])).1.toOption.isSome = true := by decide +kernel
  refine ⟨twoPhases_reached, rfl, ?_, by decide +kernel, layer_keeps _ _, ?_⟩
  · exact ⟨⟨.new 1 1 0, [2], 4, doubleHash (Address.new 1 1 0).bytes⟩, by decide +kernel, rfl⟩
  · generalize twoPhases.onSaveData (turnBlock 2 (.new 1 1 0) 1) 2 (layer []) = out at top saved
    obtain ⟨result, cs'⟩ := out
    cases result with
    | error err => cases saved
    | ok data =>
      refine ⟨data, cs', rfl, ?_⟩
      rintro ⟨first, ranked, address⟩
      rw [ranked] at top
      have same : first.address = .new 0 1 0 := Except.ok.inj top
      rw [address] at same
      exact absurd same (by decide)

end Fleta.RankInstances
