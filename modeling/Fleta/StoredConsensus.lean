import Fleta.RankObjects

/-!
# The consensus over the objects of the rank table

`Consensus` of the source with the rank table as it is kept: objects, pointers and
`rankMap`. Every call does to the table what `Consensus` does to the list of ranks, with the
same result, so that the order of the table and the window of its phases hold for the objects.
-/

namespace Fleta.Pof

open FormulatorAccount

variable {Acc Ev Tx : Type}

structure StoredConsensus where
  maxBlocksPerFormulator : UInt32
  blocksBySameFormulator : UInt32
  observerKeyMap : SortedMap PublicHash Bool
  rt : RankStore

namespace StoredConsensus

def new (maxBlocksPerFormulator : UInt32) (observerKeys : List PublicHash) : StoredConsensus where
  maxBlocksPerFormulator := maxBlocksPerFormulator
  blocksBySameFormulator := 0
  observerKeyMap := observerKeys.foldl (fun map key => map.put key true) .empty
  rt := .new

variable [HashFunction]

def updateFormulator (targetHeight phase : UInt32) (addr own : Address) (info : FormulatorInfo)
    (rt : RankStore) : Except Err Unit × RankStore :=
  let added (rt : RankStore) := rt.addRank (.new (Consensus.rankFor addr info phase))
  if own.height = targetHeight then
    if info.isActivated then added rt else (.ok (), rt)
  else
    match rt.rankMap.get addr with
    | some p =>
      if !info.isActivated then (.ok (), rt.removeRank addr)
      else if (rt.deref p).publicHash ≠ info.generatorHash then added (rt.removeRank addr)
      else (.ok (), rt)
    | none => if info.isActivated then added rt else (.ok (), rt)

variable [Account Acc] [FormulatorAccount Acc]

def updateFormulators (targetHeight phase : UInt32) :
    List (Address × Acc) → RankStore → Except Err Unit × RankStore
  | [], rt => (.ok (), rt)
  | (addr, acc) :: rest, rt =>
    match formulator acc with
    | none => updateFormulators targetHeight phase rest rt
    | some info =>
      match updateFormulator targetHeight phase addr (Account.address acc) info rt with
      | (.error err, rt) => (.error err, rt)
      | (.ok _, rt) => updateFormulators targetHeight phase rest rt

def updateFormulatorList (targetHeight : UInt32) (top : ContextData Acc Ev) (rt : RankStore) :
    Except Err Unit × RankStore :=
  match updateFormulators targetHeight (rt.smallestPhase + 2) top.accountMap.eachAll rt with
  | (.error err, rt) => (.error err, rt)
  | (.ok _, rt) =>
    let removed := top.deletedAccountMap.eachAll.filterMap fun entry =>
      (formulator entry.2).map fun _ => Account.address entry.2
    let rt := removed.foldl (fun rt addr => rt.removeRank addr) rt
    if rt.candidateCount = 0 then (.error .insufficientCandidateCount, rt) else (.ok (), rt)

def forwardTurn (headerHash : Hash256) (cs : StoredConsensus) : Except Err Unit × StoredConsensus :=
  let cs := { cs with blocksBySameFormulator := cs.blocksBySameFormulator + 1 }
  if cs.blocksBySameFormulator ≥ cs.maxBlocksPerFormulator then
    match cs.rt.forwardTop headerHash with
    | .error err => (.error err, cs)
    | .ok rt => (.ok (), { cs with rt := rt, blocksBySameFormulator := 0 })
  else (.ok (), cs)

def forwardMissed (timeoutCount : UInt32) (cs : StoredConsensus) : Except Err StoredConsensus :=
  if timeoutCount > 0 then
    match cs.rt.forwardCandidates timeoutCount.toNat with
    | .error err => .error err
    | .ok rt => .ok { cs with rt := rt, blocksBySameFormulator := 0 }
  else .ok cs

variable [Msgpack] [Codec]

def buildSaveData (cs : StoredConsensus) : Bytes :=
  Codec.encodeUint32 cs.maxBlocksPerFormulator ++ Codec.encodePublicHashBoolMap cs.observerKeyMap ++
    Codec.encodeUint32 cs.blocksBySameFormulator ++
    (Codec.encodeUint32 cs.rt.height ++ Msgpack.encodeArrayLen cs.rt.candidates.length ++
      cs.rt.candidates.flatMap fun p => Consensus.encodeRank (cs.rt.deref p).toRank)

variable [HeaderCodec]

def onSaveData (b : Block Tx) (targetHeight : UInt32) (top : ContextData Acc Ev)
    (cs : StoredConsensus) : Except Err Bytes × StoredConsensus :=
  match Consensus.decodeConsensusData b.header.consensusData with
  | .error err => (.error err, cs)
  | .ok timeoutCount =>
    match cs.forwardMissed timeoutCount with
    | .error err => (.error err, cs)
    | .ok cs =>
      match cs.forwardTurn b.header.hash with
      | (.error err, cs) => (.error err, cs)
      | (.ok _, cs) =>
        let (result, rt) := updateFormulatorList targetHeight top cs.rt
        let cs := { cs with rt := rt }
        match result with
        | .error err => (.error err, cs)
        | .ok _ => (.ok cs.buildSaveData, cs)

def initGenesis (targetHeight : UInt32) (top : ContextData Acc Ev) (cs : StoredConsensus) :
    Except Err Bytes × StoredConsensus :=
  let (result, rt) := updateFormulatorList targetHeight top cs.rt
  let cs := { cs with rt := rt }
  match result with
  | .error err => (.error err, cs)
  | .ok _ => (.ok cs.buildSaveData, cs)

end StoredConsensus

def Consensus.initGenesis [HashFunction] [Account Acc] [FormulatorAccount Acc] [Msgpack] [Codec]
    (targetHeight : UInt32) (top : ContextData Acc Ev) (cs : Consensus) :
    Except Err Bytes × Consensus :=
  let (result, rt) := Consensus.updateFormulatorList targetHeight top cs.rt
  let cs := { cs with rt := rt }
  match result with
  | .error err => (.error err, cs)
  | .ok _ => (.ok cs.buildSaveData, cs)

theorem Consensus.initGenesis_parameters [HashFunction] [Account Acc] [FormulatorAccount Acc]
    [Msgpack] [Codec] (targetHeight : UInt32) (top : ContextData Acc Ev) (cs : Consensus) :
    (cs.initGenesis targetHeight top).2.parameters = cs.parameters := by
  unfold initGenesis
  dsimp only
  split <;> rfl

namespace StoredConsensus

/-- The objects stand for the ranks of the table, which are in order; all else is the same. -/
structure Simulates (low : StoredConsensus) (cs : Consensus) : Prop where
  maxBlocks : low.maxBlocksPerFormulator = cs.maxBlocksPerFormulator
  blocks : low.blocksBySameFormulator = cs.blocksBySameFormulator
  keys : low.observerKeyMap = cs.observerKeyMap
  table : low.rt.Represents cs.rt
  ordered : Ordered cs.rt.candidates

structure SameUpdate (low : Except Err Unit × RankStore) (high : Except Err Unit × RankTable) :
    Prop where
  result : low.1 = high.1
  table : low.2.Represents high.2

variable {rt : RankStore} {table : RankTable}

theorem removeAll_represents (represents : rt.Represents table) (removed : List Address) :
    (removed.foldl (fun rt addr => rt.removeRank addr) rt).Represents
      (removed.foldl (fun rt addr => rt.removeRank addr) table) := by
  induction removed generalizing rt table with
  | nil => exact represents
  | cons addr rest ih => exact ih (represents.removeRank addr)

variable [HashFunction]

theorem updateFormulator_same (represents : rt.Represents table) (targetHeight phase : UInt32)
    (addr own : Address) (info : FormulatorInfo) :
    SameUpdate (updateFormulator targetHeight phase addr own info rt)
      (Consensus.updateFormulator targetHeight phase addr own info table) := by
  have added : ∀ {rt : RankStore} {table : RankTable}, rt.Represents table →
      SameUpdate (rt.addRank (.new (Consensus.rankFor addr info phase)))
        (table.addRank (Consensus.rankFor addr info phase)) :=
    fun represents => ⟨(represents.addRank _).1, (represents.addRank _).2⟩
  have unchanged : SameUpdate (.ok (), rt) (.ok (), table) := ⟨rfl, represents⟩
  have removed : SameUpdate (.ok (), rt.removeRank addr) (.ok (), table.removeRank addr) :=
    ⟨rfl, represents.removeRank addr⟩
  have hashes := represents.publicHash addr
  unfold updateFormulator Consensus.updateFormulator
  by_cases recent : own.height = targetHeight
  · simp only [if_pos recent]
    split
    · exact added represents
    · exact unchanged
  · simp only [if_neg recent]
    cases pointer : rt.rankMap.get addr with
    | none =>
      rw [pointer, Option.map_none, eq_comm, Option.map_eq_none_iff] at hashes
      rw [hashes]
      dsimp only
      split
      · exact added represents
      · exact unchanged
    | some p =>
      rw [pointer, Option.map_some, eq_comm, Option.map_eq_some_iff] at hashes
      obtain ⟨r, found, own⟩ := hashes
      rw [found]
      dsimp only
      rw [own]
      split
      · exact removed
      · split
        · exact added (represents.removeRank addr)
        · exact unchanged

variable [Account Acc] [FormulatorAccount Acc]

theorem updateFormulators_same (represents : rt.Represents table) (targetHeight phase : UInt32)
    (accounts : List (Address × Acc)) :
    SameUpdate (updateFormulators targetHeight phase accounts rt)
      (Consensus.updateFormulators targetHeight phase accounts table) := by
  induction accounts generalizing rt table with
  | nil => exact ⟨rfl, represents⟩
  | cons entry rest ih =>
    obtain ⟨addr, acc⟩ := entry
    rw [updateFormulators, Consensus.updateFormulators]
    cases formulator acc with
    | none => exact ih represents
    | some info =>
      have first := updateFormulator_same represents targetHeight phase addr
        (Account.address acc) info
      dsimp only
      generalize updateFormulator targetHeight phase addr (Account.address acc) info rt = low at first
      generalize Consensus.updateFormulator targetHeight phase addr (Account.address acc) info
        table = high at first
      obtain ⟨result, rt'⟩ := low
      obtain ⟨result', table'⟩ := high
      obtain ⟨rfl, represents'⟩ := first
      cases result with
      | error err => exact ⟨rfl, represents'⟩
      | ok _ => exact ih represents'

theorem updateFormulatorList_same (represents : rt.Represents table) (targetHeight : UInt32)
    (top : ContextData Acc Ev) :
    SameUpdate (updateFormulatorList targetHeight top rt)
      (Consensus.updateFormulatorList targetHeight top table) := by
  have loop := updateFormulators_same represents targetHeight (table.smallestPhase + 2)
    top.accountMap.eachAll
  unfold updateFormulatorList Consensus.updateFormulatorList
  rw [represents.smallestPhase]
  generalize updateFormulators targetHeight (table.smallestPhase + 2) top.accountMap.eachAll rt =
    low at loop
  generalize Consensus.updateFormulators targetHeight (table.smallestPhase + 2)
    top.accountMap.eachAll table = high at loop
  obtain ⟨result, rt'⟩ := low
  obtain ⟨result', table'⟩ := high
  obtain ⟨rfl, represents'⟩ := loop
  cases result with
  | error err => exact ⟨rfl, represents'⟩
  | ok _ =>
    have removed := removeAll_represents represents' (top.deletedAccountMap.eachAll.filterMap
      fun entry => (formulator entry.2).map fun _ => Account.address entry.2)
    have count : RankStore.candidateCount _ = RankTable.candidateCount _ := removed.length
    dsimp only
    rw [count]
    split <;> exact ⟨rfl, removed⟩

variable {low : StoredConsensus} {cs : Consensus}

omit [HashFunction] [Account Acc] [FormulatorAccount Acc] in
theorem forwardTurn_same (simulates : low.Simulates cs) (headerHash : Hash256) :
    (low.forwardTurn headerHash).1 = (cs.forwardTurn headerHash).1 ∧
      (low.forwardTurn headerHash).2.Simulates (cs.forwardTurn headerHash).2 := by
  have agree := simulates.table.forwardTop simulates.ordered headerHash
  unfold forwardTurn Consensus.forwardTurn
  dsimp only
  rw [simulates.blocks, simulates.maxBlocks]
  split
  · cases turned : low.rt.forwardTop headerHash with
    | error err =>
      cases turned' : cs.rt.forwardTop headerHash with
      | error err' =>
        rw [turned, turned'] at agree
        obtain rfl : err = err' := agree
        exact ⟨rfl, { simulates with maxBlocks := rfl, blocks := rfl }⟩
      | ok table' =>
        rw [turned, turned'] at agree
        exact agree.elim
    | ok rt' =>
      cases turned' : cs.rt.forwardTop headerHash with
      | error err' =>
        rw [turned, turned'] at agree
        exact agree.elim
      | ok table' =>
        rw [turned, turned'] at agree
        exact ⟨rfl, rfl, rfl, simulates.keys, agree.1, agree.2⟩
  · exact ⟨rfl, { simulates with maxBlocks := rfl, blocks := rfl }⟩

def SameMissed : Except Err StoredConsensus → Except Err Consensus → Prop
  | .ok low, .ok cs => low.Simulates cs
  | .error err, .error err' => err = err'
  | _, _ => False

omit [HashFunction] [Account Acc] [FormulatorAccount Acc] in
theorem forwardMissed_same (simulates : low.Simulates cs) (timeoutCount : UInt32) :
    SameMissed (low.forwardMissed timeoutCount) (cs.forwardMissed timeoutCount) := by
  have agree := simulates.table.forwardCandidates simulates.ordered timeoutCount.toNat
  unfold forwardMissed Consensus.forwardMissed
  split
  · cases moved : low.rt.forwardCandidates timeoutCount.toNat with
    | error err =>
      cases moved' : cs.rt.forwardCandidates timeoutCount.toNat with
      | error err' =>
        rw [moved, moved'] at agree
        exact agree
      | ok table' =>
        rw [moved, moved'] at agree
        exact agree.elim
    | ok rt' =>
      cases moved' : cs.rt.forwardCandidates timeoutCount.toNat with
      | error err' =>
        rw [moved, moved'] at agree
        exact agree.elim
      | ok table' =>
        rw [moved, moved'] at agree
        exact ⟨simulates.maxBlocks, rfl, simulates.keys, agree.1, agree.2⟩
  · exact simulates

variable [Msgpack] [Codec]

omit [HashFunction] [Account Acc] [FormulatorAccount Acc] in
theorem buildSaveData_same (simulates : low.Simulates cs) : low.buildSaveData = cs.buildSaveData := by
  have ranks : low.rt.candidates.flatMap (fun p => Consensus.encodeRank (low.rt.deref p).toRank) =
      cs.rt.candidates.flatMap Consensus.encodeRank := by
    have objects := congrArg
      (List.flatMap fun obj : RankObject => Consensus.encodeRank obj.toRank) simulates.table.candidates
    rw [List.flatMap_map, List.flatMap_map] at objects
    exact objects
  rw [buildSaveData, Consensus.buildSaveData, simulates.maxBlocks, simulates.keys,
    simulates.blocks, simulates.table.height, simulates.table.length, ranks]

theorem initGenesis_same (simulates : low.Simulates cs) (targetHeight : UInt32)
    (top : ContextData Acc Ev) :
    (low.initGenesis targetHeight top).1 = (cs.initGenesis targetHeight top).1 ∧
      (low.initGenesis targetHeight top).2.Simulates (cs.initGenesis targetHeight top).2 := by
  have same := updateFormulatorList_same simulates.table targetHeight top
  have updated := Consensus.updateFormulatorList_updated targetHeight top cs.rt
  unfold initGenesis Consensus.initGenesis
  generalize updateFormulatorList targetHeight top low.rt = lowUpdate at same
  generalize Consensus.updateFormulatorList targetHeight top cs.rt = highUpdate at same updated
  obtain ⟨result, rt'⟩ := lowUpdate
  obtain ⟨result', table'⟩ := highUpdate
  obtain ⟨rfl, represents'⟩ := same
  have simulates' : Simulates { low with rt := rt' } { cs with rt := table' } :=
    { simulates with table := represents', ordered := updated.steps.ordered simulates.ordered }
  cases result with
  | error err => exact ⟨rfl, simulates'⟩
  | ok _ => exact ⟨congrArg Except.ok (buildSaveData_same simulates'), simulates'⟩

variable [HeaderCodec]

theorem onSaveData_same (simulates : low.Simulates cs) (b : Block Tx) (targetHeight : UInt32)
    (top : ContextData Acc Ev) :
    (low.onSaveData b targetHeight top).1 = (cs.onSaveData b targetHeight top).1 ∧
      (low.onSaveData b targetHeight top).2.Simulates (cs.onSaveData b targetHeight top).2 := by
  unfold onSaveData Consensus.onSaveData
  cases Consensus.decodeConsensusData b.header.consensusData with
  | error err => exact ⟨rfl, simulates⟩
  | ok timeoutCount =>
    have missed := forwardMissed_same simulates timeoutCount
    dsimp only
    generalize low.forwardMissed timeoutCount = lowMissed at missed
    generalize cs.forwardMissed timeoutCount = highMissed at missed
    cases lowMissed with
    | error err =>
      cases highMissed with
      | error err' =>
        obtain rfl : err = err' := missed
        exact ⟨rfl, simulates⟩
      | ok cs' => exact missed.elim
    | ok low' =>
      cases highMissed with
      | error err' => exact missed.elim
      | ok cs' =>
        have turned := forwardTurn_same missed b.header.hash
        dsimp only
        generalize low'.forwardTurn b.header.hash = lowTurn at turned
        generalize cs'.forwardTurn b.header.hash = highTurn at turned
        obtain ⟨result, low''⟩ := lowTurn
        obtain ⟨result', cs''⟩ := highTurn
        obtain ⟨rfl, simulates'⟩ := turned
        cases result with
        | error err => exact ⟨rfl, simulates'⟩
        | ok _ => exact initGenesis_same simulates' targetHeight top

end StoredConsensus

end Fleta.Pof
