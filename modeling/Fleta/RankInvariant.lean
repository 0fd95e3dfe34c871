import Fleta.Instances
import Fleta.StoredConsensus

/-!
# The invariant of the rank table

`OnSaveData` works on the table in stages: it moves the candidates that missed their turn,
ends the turn of the first one, and then adds and removes ranks at one phase. `Runs` holds
of every table that occurs on the way, while no phase reaches 2^32 - 2 where phases are
raised. In all of them the candidates are in order, `rankMap` points to exactly them, and
their phases lie within two of the smallest one.
-/

namespace Fleta.Pof

open RankTable

variable {Acc Ev Tx : Type}

namespace RankObject

theorem less_trans (a b c : RankObject) (first : a.less b = true) (second : b.less c = true) :
    a.less c = true := by
  simp only [less, Bool.or_eq_true, Bool.and_eq_true, decide_eq_true_eq, beq_iff_eq,
    Ordering.isLT_iff_eq_lt, UInt64.lt_iff_toNat_lt, ← UInt64.toNat_inj] at first second ⊢
  exact Rank.lex_trans first second

end RankObject

namespace RankStore

structure Invariant (rt : RankStore) : Prop where
  sorted : rt.candidates.Pairwise fun p q => (rt.deref p).less (rt.deref q) = true
  scored : ∀ p ∈ rt.candidates, (rt.deref p).score = (rt.deref p).toRank.score
  mapped : ∀ addr p, rt.rankMap.get addr = some p ↔ p ∈ rt.candidates ∧ (rt.deref p).address = addr
  distinct : (rt.candidates.map fun p => (rt.deref p).address).Nodup
  window : ∀ p ∈ rt.candidates, rt.smallestPhase.toNat ≤ (rt.deref p).phase.toNat ∧
    (rt.deref p).phase.toNat ≤ rt.smallestPhase.toNat + 2

/-- The searches of the source, over all candidates and over those behind the first one, find
the place where an object becomes less than what follows. -/
def FindsPlace (rt : RankStore) : Prop :=
  ∀ (obj : RankObject) (p skipped : Nat),
    TurnsAt (fun i => obj.less (rt.deref (rt.candidates.getD (i + skipped) p)))
      (rt.candidates.length - skipped)
      (sortSearch (rt.candidates.length - skipped) fun i =>
        obj.less (rt.deref (rt.candidates.getD (i + skipped) p)))

def Low (rt : RankStore) : Prop := ∀ p ∈ rt.candidates, (rt.deref p).phase.toNat < 2 ^ 32 - 2

variable {rt : RankStore} {table : RankTable}

theorem Represents.low_iff (represents : rt.Represents table) :
    rt.Low ↔ RankTable.Low table.candidates := by
  have phases := congrArg (List.map fun obj : RankObject => obj.phase) represents.candidates
  rw [List.map_map, List.map_map] at phases
  have left : rt.Low ↔ ∀ phase ∈ rt.candidates.map ((fun obj : RankObject => obj.phase) ∘ rt.deref),
      phase.toNat < 2 ^ 32 - 2 := by
    simp [Low]
  rw [left, phases]
  simp [RankTable.Low, RankObject.new]

theorem Represents.invariant (represents : rt.Represents table)
    (sound : RankTable.Sound table.candidates) : rt.Invariant where
  sorted := by
    have sorted : (table.candidates.map RankObject.new).Pairwise fun a b => a.less b = true := by
      rw [List.pairwise_map]
      exact sound.ordered.sorted
    rwa [← represents.candidates, List.pairwise_map] at sorted
  scored p listed := by
    have object : rt.deref p ∈ table.candidates.map RankObject.new := by
      rw [← represents.candidates]
      exact List.mem_map_of_mem listed
    obtain ⟨rank, _, made⟩ := List.mem_map.mp object
    rw [← made]
    rfl
  mapped := represents.mapped
  distinct := by
    rw [represents.addresses]
    exact sound.ordered.distinct
  window p listed := by
    have object : rt.deref p ∈ table.candidates.map RankObject.new := by
      rw [← represents.candidates]
      exact List.mem_map_of_mem listed
    obtain ⟨rank, member, made⟩ := List.mem_map.mp object
    rw [← made, represents.smallestPhase]
    exact ⟨smallestPhase_le sound.ordered rank member, sound.window.le_smallestPhase rank member⟩

theorem Invariant.findsPlace (invariant : rt.Invariant) : rt.FindsPlace := by
  intro obj p skipped
  apply sortSearch_turnsAt
  intro i j ordered small turned
  rcases Nat.lt_or_eq_of_le ordered with earlier | same
  · have pair := List.pairwise_iff_getElem.mp invariant.sorted (i + skipped) (j + skipped)
      (by omega) (by omega) (by omega)
    rw [List.getD_eq_getElem _ _ (by omega)] at turned ⊢
    exact RankObject.less_trans _ _ _ turned pair
  · rwa [← same]

/-- Where `OnSaveData` stands: between two calls, with some candidates still to move, or
adding ranks of one phase. -/
inductive Stage where
  | idle
  | forwarding (moves : Nat)
  | updating (phase : UInt32)

/-- The tables that occur while `OnSaveData` drives the operations. A call may end at every
stage, since it stops at the first error. -/
inductive Runs : Stage → RankStore → Prop
  | new : Runs .idle .new
  | start {rt : RankStore} (timeoutCount : Nat) (reached : Runs .idle rt) (low : rt.Low)
      (fewer : timeoutCount = 0 ∨ timeoutCount < rt.candidates.length) :
      Runs (.forwarding timeoutCount) rt
  | forwardCandidate {rt : RankStore} {moves : Nat} (reached : Runs (.forwarding (moves + 1)) rt) :
      Runs (.forwarding moves) rt.forwardCandidate
  | forwardTop {rt rt' : RankStore} {hash : Hash256} (reached : Runs (.forwarding 0) rt)
      (forwarded : rt.forwardTop hash = .ok rt') : Runs .idle rt'
  | update {rt : RankStore} (reached : Runs .idle rt) (low : rt.Low) :
      Runs (.updating (rt.smallestPhase + 2)) rt
  | addRank {rt : RankStore} {phase : UInt32} {s : Rank} (reached : Runs (.updating phase) rt)
      (level : s.phase = phase) : Runs (.updating phase) (rt.addRank (.new s)).2
  | removeRank {rt : RankStore} {phase : UInt32} (addr : Address)
      (reached : Runs (.updating phase) rt) : Runs (.updating phase) (rt.removeRank addr)
  | done {rt : RankStore} {stage : Stage} (reached : Runs stage rt) : Runs .idle rt

def Stage.Holds : Stage → List Rank → Prop
  | .idle, _ => True
  | .forwarding moves, ranks => ranks = [] ∨ highPhases ranks + moves < ranks.length
  | .updating phase, ranks =>
    ∀ r ∈ ranks, r.phase.toNat ≤ phase.toNat ∧ phase.toNat ≤ r.phase.toNat + 2

variable {phase : UInt32}

theorem Stage.Holds.update {ranks ranks' : List Rank}
    (holds : (Stage.updating phase).Holds ranks) (sound : RankTable.Sound ranks)
    (steps : Updates phase ranks ranks') :
    RankTable.Sound ranks' ∧ (Stage.updating phase).Holds ranks' := by
  have near : (Stage.updating phase).Holds ranks' :=
    steps.forall_phase (fun other => other.toNat ≤ phase.toNat ∧ phase.toNat ≤ other.toNat + 2)
      ⟨Nat.le_refl _, Nat.le_add_right _ _⟩ holds
  refine ⟨⟨steps.ordered sound.ordered, ?_⟩, near⟩
  intro r listed s listed'
  have first := near r listed
  have second := near s listed'
  omega

theorem Stage.Holds.start {ranks : List Rank} (low : RankTable.Low ranks) {timeoutCount : Nat}
    (fewer : timeoutCount = 0 ∨ timeoutCount < ranks.length) :
    (Stage.forwarding timeoutCount).Holds ranks := by
  have none : highPhases ranks = 0 := highPhases_low low
  cases ranks with
  | nil => exact .inl rfl
  | cons top rest =>
    refine .inr ?_
    rw [List.length_cons] at fewer ⊢
    omega

variable {rt : RankStore}

theorem Runs.sound {stage : Stage} (runs : Runs stage rt) :
    ∃ table, rt.Represents table ∧ RankTable.Sound table.candidates ∧ stage.Holds table.candidates := by
  induction runs with
  | new =>
    refine ⟨.new, .new, ⟨.nil, ?_⟩, trivial⟩
    intro r listed
    cases listed
  | start timeoutCount reached low fewer ih =>
    obtain ⟨table, represents, sound, _⟩ := ih
    rw [represents.length] at fewer
    exact ⟨table, represents, sound, .start (represents.low_iff.mp low) fewer⟩
  | forwardCandidate reached ih =>
    obtain ⟨table, represents, sound, holds⟩ := ih
    refine ⟨_, represents.forwardCandidate sound.ordered, ?_⟩
    dsimp only
    rcases holds with none | few
    · rw [none] at sound ⊢
      exact ⟨sound, .inl rfl⟩
    · obtain ⟨sound', more⟩ := sound.forwardCandidate (by omega)
      refine ⟨sound', .inr ?_⟩
      rw [length_forwardCandidate]
      omega
  | @forwardTop rt rt' hash reached forwarded ih =>
    obtain ⟨table, represents, sound, holds⟩ := ih
    have agree := represents.forwardTop sound.ordered hash
    rw [forwarded] at agree
    cases forwarded' : table.forwardTop hash with
    | error err =>
      rw [forwarded'] at agree
      exact agree.elim
    | ok table' =>
      rw [forwarded'] at agree
      have few : highPhases table.candidates < table.candidates.length := by
        rcases holds with none | few
        · rw [RankTable.forwardTop, none] at forwarded'
          cases forwarded'
        · omega
      exact ⟨table', agree.1, sound.forwardTop few forwarded', trivial⟩
  | update reached low ih =>
    obtain ⟨table, represents, sound, _⟩ := ih
    refine ⟨table, represents, sound, ?_⟩
    intro r listed
    have above := smallestPhase_le sound.ordered r listed
    have within := sound.window.le_smallestPhase r listed
    have small := represents.low_iff.mp low r listed
    have raised : (table.smallestPhase + 2).toNat = table.smallestPhase.toNat + 2 := toNat_raise (by
        have two : (2 : UInt32).toNat = 2 := rfl
        omega)
    rw [represents.smallestPhase, raised]
    omega
  | @addRank rt phase s reached level ih =>
    obtain ⟨table, represents, sound, holds⟩ := ih
    have updated := addRank_updated s table
    rw [level] at updated
    obtain ⟨sound', holds'⟩ := holds.update sound updated.steps
    exact ⟨_, (represents.addRank s).2, sound', holds'⟩
  | @removeRank rt phase addr reached ih =>
    obtain ⟨table, represents, sound, holds⟩ := ih
    have updated := removeRank_updated phase addr table
    obtain ⟨sound', holds'⟩ := holds.update sound updated.steps
    exact ⟨_, represents.removeRank addr, sound', holds'⟩
  | done reached ih =>
    obtain ⟨table, represents, sound, _⟩ := ih
    exact ⟨table, represents, sound, trivial⟩

theorem Runs.addRank_phase (runs : Runs (.updating phase) rt)
    {s : Rank} (level : s.phase = phase) : (rt.addRank (.new s)).1 ≠ .error .invalidPhase := by
  obtain ⟨table, represents, sound, holds⟩ := runs.sound
  rw [(represents.addRank s).1]
  intro failed
  have updated := addRank_updated s table
  obtain ⟨some, below⟩ := updated.invalid failed
  have unchanged : (table.addRank s).2 = table := by
    unfold RankTable.addRank at failed ⊢
    split
    · rfl
    · rename_i high
      rw [if_neg high] at failed
      split at failed <;> cases failed
  rw [unchanged] at some below
  obtain ⟨top, rest, first⟩ := List.exists_cons_of_ne_nil some
  have head : table.smallestPhase = top.phase := by rw [RankTable.smallestPhase, first]; rfl
  have near := holds top (by rw [first]; exact List.mem_cons_self)
  rw [head, level, UInt32.lt_iff_toNat_lt] at below
  omega

theorem Runs.moves (moves rest : Nat) (runs : Runs (.forwarding (moves + rest)) rt) :
    Runs (.forwarding rest) (RankStore.forwardCandidate^[moves] rt) := by
  induction moves generalizing rest with
  | zero => rwa [Nat.zero_add] at runs
  | succ moves ih =>
    rw [Function.iterate_succ_apply']
    apply Runs.forwardCandidate
    apply ih
    rwa [show moves + (rest + 1) = moves + 1 + rest by omega]

end RankStore

namespace StoredConsensus

open RankStore

/-- The phases are below 2^32 - 2 in the two tables on which `OnSaveData` raises phases: the
one it starts from, and the one whose formulators it updates. -/
structure StaysLow [HashFunction] [HeaderCodec] [Codec] (b : Block Tx) (cs : StoredConsensus) :
    Prop where
  before : cs.rt.Low
  forwarded : ∀ timeoutCount missed turned,
    Consensus.decodeConsensusData b.header.consensusData = .ok timeoutCount →
    cs.forwardMissed timeoutCount = .ok missed →
    missed.forwardTurn b.header.hash = (.ok (), turned) → turned.rt.Low

variable [HashFunction] {rt : RankStore} {phase : UInt32}

theorem updateFormulator_runs (runs : Runs (.updating phase) rt) (targetHeight : UInt32)
    (addr own : Address) (info : FormulatorInfo) :
    Runs (.updating phase) (updateFormulator targetHeight phase addr own info rt).2 := by
  unfold updateFormulator
  split
  · split
    · exact runs.addRank rfl
    · exact runs
  · split
    · split
      · exact runs.removeRank addr
      · split
        · exact (runs.removeRank addr).addRank rfl
        · exact runs
    · split
      · exact runs.addRank rfl
      · exact runs

variable [Account Acc] [FormulatorAccount Acc]

theorem updateFormulators_runs (runs : Runs (.updating phase) rt) (targetHeight : UInt32)
    (accounts : List (Address × Acc)) :
    Runs (.updating phase) (updateFormulators targetHeight phase accounts rt).2 := by
  induction accounts generalizing rt with
  | nil => exact runs
  | cons entry rest ih =>
    obtain ⟨addr, acc⟩ := entry
    rw [updateFormulators]
    split
    · exact ih runs
    · rename_i info _
      have first := updateFormulator_runs runs targetHeight addr (Account.address acc) info
      split
      · rename_i failed
        rwa [failed] at first
      · rename_i passed
        rw [passed] at first
        exact ih first

omit [HashFunction] [Account Acc] [FormulatorAccount Acc] in
theorem removeAll_runs (runs : Runs (.updating phase) rt) (removed : List Address) :
    Runs (.updating phase) (removed.foldl (fun rt addr => rt.removeRank addr) rt) := by
  induction removed generalizing rt with
  | nil => exact runs
  | cons addr rest ih => exact ih (runs.removeRank addr)

theorem updateFormulatorList_runs (runs : Runs .idle rt) (low : rt.Low) (targetHeight : UInt32)
    (top : ContextData Acc Ev) : Runs .idle (updateFormulatorList targetHeight top rt).2 := by
  have loop := updateFormulators_runs (runs.update low) targetHeight top.accountMap.eachAll
  unfold updateFormulatorList
  split
  · rename_i failed
    rw [failed] at loop
    exact loop.done
  · rename_i passed
    rw [passed] at loop
    dsimp only
    split <;> exact (removeAll_runs loop _).done

theorem updateFormulatorList_phase (runs : Runs .idle rt) (low : rt.Low)
    (targetHeight : UInt32) (top : ContextData Acc Ev) :
    (updateFormulatorList targetHeight top rt).1 ≠ .error .invalidPhase := by
  obtain ⟨table, represents, sound, _⟩ := runs.sound
  rw [(updateFormulatorList_same represents targetHeight top).result]
  have room : table.smallestPhase.toNat < 2 ^ 32 - 2 := by
    have small := represents.low_iff.mp low
    obtain ⟨height, ranks⟩ := table
    cases ranks with
    | nil => exact (by decide : (0 : UInt32).toNat < 2 ^ 32 - 2)
    | cons first rest => exact small first List.mem_cons_self
  exact (sound.update room (Consensus.updateFormulatorList_updated targetHeight top table)).2

variable {cs : StoredConsensus}

section

omit [HashFunction] [Account Acc] [FormulatorAccount Acc]

theorem forwardMissed_runs {missed : StoredConsensus} {timeoutCount : UInt32}
    (runs : Runs .idle cs.rt) (low : cs.rt.Low) (forwarded : cs.forwardMissed timeoutCount = .ok missed) :
    Runs (.forwarding 0) missed.rt := by
  unfold forwardMissed at forwarded
  split at forwarded
  · unfold RankStore.forwardCandidates at forwarded
    by_cases many : timeoutCount.toNat ≥ cs.rt.candidates.length
    · rw [if_pos many] at forwarded
      cases forwarded
    · rw [if_neg many] at forwarded
      cases forwarded
      have started := runs.start timeoutCount.toNat low (.inr (by omega))
      exact started.moves timeoutCount.toNat 0
  · cases forwarded
    exact runs.start 0 low (.inl rfl)

theorem forwardTurn_runs (runs : Runs (.forwarding 0) cs.rt)
    (hash : Hash256) : Runs .idle (cs.forwardTurn hash).2.rt := by
  unfold forwardTurn
  dsimp only
  split
  · split
    · exact runs.done
    · rename_i forwarded
      exact runs.forwardTop forwarded
  · exact runs.done

end

variable [Msgpack] [Codec]

theorem initGenesis_runs (runs : Runs .idle cs.rt) (low : cs.rt.Low)
    (targetHeight : UInt32) (top : ContextData Acc Ev) :
    Runs .idle (cs.initGenesis targetHeight top).2.rt := by
  have updated := updateFormulatorList_runs runs low targetHeight top
  unfold initGenesis
  dsimp only
  split <;> exact updated

variable [HeaderCodec]

theorem onSaveData_runs {b : Block Tx} (runs : Runs .idle cs.rt)
    (low : cs.StaysLow b) (targetHeight : UInt32) (top : ContextData Acc Ev) :
    Runs .idle (cs.onSaveData b targetHeight top).2.rt := by
  unfold onSaveData
  split
  · exact runs
  rename_i timeoutCount decoded
  split
  · exact runs
  rename_i missed forwarded
  have turn := forwardTurn_runs (forwardMissed_runs runs low.before forwarded) b.header.hash
  split <;> rename_i turned
  · rwa [turned] at turn
  · rw [turned] at turn
    exact initGenesis_runs turn (low.forwarded _ _ _ decoded forwarded turned) targetHeight top

variable (Acc Ev Tx)

/-- The states of the consensus: `InitGenesis` on a new one, and then calls of `OnSaveData` for
any blocks and any top layers, also those that fail. -/
inductive Reaches : StoredConsensus → Prop
  | new (maxBlocksPerFormulator : UInt32) (observerKeys : List PublicHash) :
      Reaches (.new maxBlocksPerFormulator observerKeys)
  | genesis (maxBlocksPerFormulator : UInt32) (observerKeys : List PublicHash)
      (targetHeight : UInt32) (top : ContextData Acc Ev) :
      Reaches ((new maxBlocksPerFormulator observerKeys).initGenesis targetHeight top).2
  | save {cs : StoredConsensus} (b : Block Tx) (targetHeight : UInt32) (top : ContextData Acc Ev)
      (reached : Reaches cs) (low : cs.StaysLow b) : Reaches (cs.onSaveData b targetHeight top).2

/-- Over every run of the consensus, all tables that occur keep the invariant, the searches
find the right place in them, and no rank is refused for its phase. -/
theorem rankTable_invariant :
    (∀ cs, Reaches Acc Ev Tx cs → Runs .idle cs.rt) ∧
    (∀ stage rt, Runs stage rt → rt.Invariant ∧ rt.FindsPlace) ∧
    (∀ phase rt s, Runs (.updating phase) rt → s.phase = phase →
      (rt.addRank (.new s)).1 ≠ .error .invalidPhase) ∧
    ∀ rt targetHeight (top : ContextData Acc Ev), Runs .idle rt → rt.Low →
      (updateFormulatorList targetHeight top rt).1 ≠ .error .invalidPhase := by
  refine ⟨?_, ?_, ?_, ?_⟩
  · intro cs reached
    induction reached with
    | new maxBlocks keys => exact .new
    | genesis maxBlocks keys targetHeight top =>
      apply initGenesis_runs .new
      intro p listed
      cases listed
    | save b targetHeight top reached low ih => exact onSaveData_runs ih low targetHeight top
  · intro stage rt runs
    obtain ⟨table, represents, sound, _⟩ := runs.sound
    have invariant := represents.invariant sound
    exact ⟨invariant, invariant.findsPlace⟩
  · intro phase rt s runs level
    exact runs.addRank_phase level
  · intro rt targetHeight top runs low
    exact updateFormulatorList_phase runs low targetHeight top

end StoredConsensus

end Fleta.Pof

namespace Fleta.RankInstances

open Pof Instances ByteOrder

scoped instance : FormulatorAccount SingleAccount where
  formulator acc := some ⟨acc.keyHash, true⟩

scoped instance : Codec where
  encodeUint32 value := littleEndian 4 value.toNat
  decodeUint32 bytes := .ok (UInt32.ofNat (fromLittleEndian (bytes.take 4)))
  encodePublicHashBoolMap map := frame (map.eachAll.flatMap fun entry => frame entry.1)
  marshalBlockSign s := frame s.headerHash ++ s.generatorSignature

def layer (formulators : List (UInt32 × UInt16 × PublicHash)) : ContextData SingleAccount PlainEvent :=
  { ContextData.new none with
    accountMap := formulators.foldl (fun map entry =>
        let addr := Address.new entry.1 entry.2.1 0
        map.put addr ⟨addr, [], entry.2.2⟩) .empty }

def turnBlock (height : UInt32) (generator : Address) (timeoutCount : UInt32) : Block SetData where
  header := ⟨0, 0, height, [], [], [], 0, generator, littleEndian 4 timeoutCount.toNat⟩
  transactionTypes := []
  transactions := []
  transactionSignatures := []
  signatures := []

def twoFormulators : StoredConsensus :=
  ((StoredConsensus.new 2 []).initGenesis 0 (layer [(0, 1, [1]), (0, 2, [2])])).2

theorem twoFormulators_invariant :
    (twoFormulators.rt.Invariant ∧ twoFormulators.rt.FindsPlace) ∧
      (StoredConsensus.updateFormulatorList 1 (layer [(1, 1, [3])]) twoFormulators.rt).1 ≠
        .error .invalidPhase := by
  have results := StoredConsensus.rankTable_invariant SingleAccount PlainEvent SetData
  have runs := results.1 twoFormulators
    (.genesis 2 [] 0 (layer [(0, 1, [1]), (0, 2, [2])]))
  have low : twoFormulators.rt.Low := by
    unfold RankStore.Low
    decide +kernel
  exact ⟨results.2.1 _ _ runs, results.2.2.2 _ 1 (layer [(1, 1, [3])]) runs low⟩

end Fleta.RankInstances
