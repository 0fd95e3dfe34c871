import Fleta.RankInvariant
import Fleta.SelfDelimiting

/-!
# The consensus after a restart

`OnLoadChain` reads what `buildSaveData` wrote: the parameters, which must be those of the
new process, the number of blocks of the turn and the ranks. The ranks become new objects in
the order in which they were written; their scores are computed again and `rankMap` is
filled anew. What is loaded stands for the same table, so no later call can tell the two apart.
-/

namespace Fleta.Pof

open List

variable {Acc Ev Tx : Type}

/-- The decoder of a stream; each call reads from the front. -/
class Decoder where
  decodeUint32 : Bytes → Except Err (UInt32 × Bytes)
  decodeBytes : Bytes → Except Err (Bytes × Bytes)
  decodeArrayLen : Bytes → Except Err (Nat × Bytes)
  encodeBool : Bool → Bytes
  decodeBool : Bytes → Except Err (Bool × Bytes)

section Load

variable [Decoder]

/-- One rank. The arrays of the key hash and of the hash space are as long as what was written. -/
def decodeRank (bytes : Bytes) : Except Err (Rank × Bytes) :=
  match Decoder.decodeBytes bytes with
  | .error err => .error err
  | .ok (address, bytes) =>
    match Decoder.decodeBytes bytes with
    | .error err => .error err
    | .ok (publicHash, bytes) =>
      match Decoder.decodeUint32 bytes with
      | .error err => .error err
      | .ok (phase, bytes) =>
        match Decoder.decodeBytes bytes with
        | .error err => .error err
        | .ok (hashSpace, bytes) =>
          .ok (⟨Database.addressOf address, publicHash, phase, hashSpace⟩, bytes)

/-- A rank that was read becomes the last candidate; its score is not set before `update`. -/
def RankStore.append (rt : RankStore) (s : Rank) : RankStore where
  height := rt.height
  heap := rt.heap ++ [RankObject.update ⟨s, 0⟩]
  candidates := rt.candidates ++ [rt.heap.length]
  rankMap := rt.rankMap.put s.address rt.heap.length

def decodeRankTable (bytes : Bytes) : Except Err (RankStore × Bytes) :=
  match Decoder.decodeUint32 bytes with
  | .error err => .error err
  | .ok (height, bytes) =>
    match Decoder.decodeArrayLen bytes with
    | .error err => .error err
    | .ok (len, bytes) =>
      readTimes decodeRank RankStore.append len { RankStore.new with height := height } bytes

def decodeKey (bytes : Bytes) : Except Err ((PublicHash × Bool) × Bytes) :=
  match Decoder.decodeBytes bytes with
  | .error err => .error err
  | .ok (pubhash, bytes) =>
    match Decoder.decodeBool bytes with
    | .error err => .error err
    | .ok (value, bytes) => .ok ((pubhash, value), bytes)

def decodePublicHashBoolMap (bytes : Bytes) : Except Err (SortedMap PublicHash Bool × Bytes) :=
  match Decoder.decodeArrayLen bytes with
  | .error err => .error err
  | .ok (len, bytes) => readTimes decodeKey (fun map entry => map.put entry.1 entry.2) len .empty bytes

def StoredConsensus.onLoadChain (data : Bytes) (cs : StoredConsensus) :
    Except Err Unit × StoredConsensus :=
  match Decoder.decodeUint32 data with
  | .error err => (.error err, cs)
  | .ok (maxBlocks, bytes) =>
    if cs.maxBlocksPerFormulator ≠ maxBlocks then (.error .invalidMaxBlocksPerFormulator, cs)
    else
      match decodePublicHashBoolMap bytes with
      | .error err => (.error err, cs)
      | .ok (keys, bytes) =>
        if keys.len ≠ cs.observerKeyMap.len then (.error .invalidObserverKey, cs)
        else if keys.eachAll.any fun entry => !cs.observerKeyMap.has entry.1 then
          (.error .invalidObserverKey, cs)
        else
          match Decoder.decodeUint32 bytes with
          | .error err => (.error err, cs)
          | .ok (blocks, bytes) =>
            let cs := { cs with blocksBySameFormulator := blocks }
            match decodeRankTable bytes with
            | .error err => (.error err, cs)
            | .ok (rt, _) => (.ok (), { cs with rt := rt })

end Load

/-- The encoders of the primitive values can be inverted, and the map of the keys is written
entry by entry. -/
class LawfulDecoder [Msgpack] [Codec] [Decoder] : Prop where
  uint32 : Reads Codec.encodeUint32 Decoder.decodeUint32
  bytes : Reads Msgpack.encodeBytes Decoder.decodeBytes
  arrayLen : Reads Msgpack.encodeArrayLen Decoder.decodeArrayLen
  bool : Reads Decoder.encodeBool Decoder.decodeBool
  publicHashBoolMap : ∀ map : SortedMap PublicHash Bool,
    Codec.encodePublicHashBoolMap map = Msgpack.encodeArrayLen map.eachAll.length ++
      map.eachAll.flatMap fun entry => Msgpack.encodeBytes entry.1 ++ Decoder.encodeBool entry.2

section Decoding

variable [Msgpack] [Codec] [Decoder] [LawfulDecoder]

theorem decodeRank_encodeRank : Reads Consensus.encodeRank decodeRank := by
  intro s rest
  rw [Consensus.encodeRank, append_assoc, append_assoc, append_assoc, decodeRank,
    LawfulDecoder.bytes]
  dsimp only
  rw [LawfulDecoder.bytes]
  dsimp only
  rw [LawfulDecoder.uint32]
  dsimp only
  rw [LawfulDecoder.bytes]
  rw [Database.addressOf_bytes]

theorem decodePublicHashBoolMap_encode :
    Reads Codec.encodePublicHashBoolMap decodePublicHashBoolMap := by
  intro map rest
  have entries : Reads
      (fun entry : PublicHash × Bool => Msgpack.encodeBytes entry.1 ++ Decoder.encodeBool entry.2)
      decodeKey := by
    intro entry rest
    rw [append_assoc, decodeKey, LawfulDecoder.bytes]
    dsimp only
    rw [LawfulDecoder.bool]
  have whole : map.eachAll.foldl (fun built entry => built.put entry.1 entry.2)
      (SortedMap.empty : SortedMap PublicHash Bool) = map := by
    apply SortedMap.ext_get
    intro key
    refine (SortedMap.get_putAll map .empty key).trans ?_
    rw [SortedMap.get_empty, Option.or_none]
  rw [LawfulDecoder.publicHashBoolMap, append_assoc, decodePublicHashBoolMap,
    LawfulDecoder.arrayLen]
  dsimp only
  rw [readTimes_written entries, whole]

end Decoding

variable {table : RankTable} {rt : RankStore}

theorem RankStore.Represents.append (represents : rt.Represents table)
    {s : Rank} (fresh : s.address ∉ table.candidates.map Rank.address) :
    (rt.append s).Represents { table with candidates := table.candidates ++ [s] } := by
  have grown := represents.alloc (RankObject.new s)
  have object : RankStore.deref rt.heap.length { rt with heap := rt.heap ++ [RankObject.new s] } =
      RankObject.new s := by
    simp [RankStore.deref]
  apply grown.join _ object fresh
  · intro q
    rw [mem_append, mem_singleton, or_comm]
  · rw [map_append, map_append, grown.candidates, map_singleton, object, map_singleton]
  · rw [length_append, length_singleton]
    exact Nat.lt_succ_self _

theorem RankStore.Represents.appendAll (represents : rt.Represents table) {ranks : List Rank}
    (distinct : ((table.candidates ++ ranks).map Rank.address).Nodup) :
    (ranks.foldl RankStore.append rt).Represents
      { table with candidates := table.candidates ++ ranks } := by
  induction ranks generalizing rt table with
  | nil =>
    rw [append_nil]
    exact represents
  | cons s rest ih =>
    have fresh : s.address ∉ table.candidates.map Rank.address := by
      intro listed
      rw [map_append, nodup_append] at distinct
      exact distinct.2.2 _ listed _ mem_cons_self rfl
    have appended := represents.append fresh
    have result := ih appended (by rwa [append_assoc, singleton_append])
    rwa [append_assoc, singleton_append] at result

namespace StoredConsensus

/-- What the consensus answers: the formulator of every turn, who is a formulator with which
key, and how many blocks the turn has. -/
structure SameAnswers (cs other : StoredConsensus) : Prop where
  topRank : ∀ timeoutCount, cs.rt.topRank timeoutCount = other.rt.topRank timeoutCount
  isFormulator : ∀ addr publicHash,
    cs.rt.isFormulator addr publicHash = other.rt.isFormulator addr publicHash
  blocks : cs.blocksBySameFormulator = other.blocksBySameFormulator

theorem Simulates.sameAnswers {low other : StoredConsensus} {cs : Consensus}
    (simulates : low.Simulates cs) (simulates' : other.Simulates cs) : low.SameAnswers other where
  topRank timeoutCount := by
    rw [simulates.table.topRank, simulates'.table.topRank]
  isFormulator addr publicHash := by
    rw [simulates.table.isFormulator, simulates'.table.isFormulator]
  blocks := simulates.blocks.trans simulates'.blocks.symm

variable [Msgpack] [Codec] [Decoder] [LawfulDecoder]

theorem decodeRankTable_represents {table : RankTable} (ordered : Ordered table.candidates) :
    ∃ rt, decodeRankTable (Codec.encodeUint32 table.height ++
        Msgpack.encodeArrayLen table.candidates.length ++
          table.candidates.flatMap Consensus.encodeRank) = .ok (rt, []) ∧ rt.Represents table := by
  have start : RankStore.Represents { RankStore.new with height := table.height }
      { RankTable.new with height := table.height } :=
    { RankStore.Represents.new with height := rfl }
  refine ⟨table.candidates.foldl RankStore.append { RankStore.new with height := table.height },
    ?_, start.appendAll ordered.distinct⟩
  have ranks := readTimes_written decodeRank_encodeRank RankStore.append table.candidates
    { RankStore.new with height := table.height } []
  rw [append_nil] at ranks
  rw [append_assoc, decodeRankTable, LawfulDecoder.uint32]
  dsimp only
  rw [LawfulDecoder.arrayLen]
  exact ranks

variable {cs : Consensus}

theorem Simulates.onLoadChain {low fresh : StoredConsensus} (simulates : low.Simulates cs)
    (parameters : cs.parameters = (fresh.maxBlocksPerFormulator, fresh.observerKeyMap)) :
    ∃ loaded, fresh.onLoadChain low.buildSaveData = (.ok (), loaded) ∧ loaded.Simulates cs := by
  have maxBlocks : fresh.maxBlocksPerFormulator = cs.maxBlocksPerFormulator :=
    (congrArg Prod.fst parameters).symm
  have keys : fresh.observerKeyMap = cs.observerKeyMap := (congrArg Prod.snd parameters).symm
  obtain ⟨rt, decoded, represents⟩ := decodeRankTable_represents simulates.ordered
  refine ⟨{ fresh with blocksBySameFormulator := cs.blocksBySameFormulator, rt := rt }, ?_,
    maxBlocks, rfl, keys, represents, simulates.ordered⟩
  have known : (cs.observerKeyMap.eachAll.any fun entry => !cs.observerKeyMap.has entry.1) =
      false := by
    rw [any_eq_false]
    intro entry listed
    rw [SortedMap.mem_eachAll] at listed
    rw [SortedMap.has_eq, listed, Option.isSome_some]
    decide
  rw [buildSaveData_same simulates, Consensus.buildSaveData, append_assoc, append_assoc,
    StoredConsensus.onLoadChain, LawfulDecoder.uint32]
  dsimp only
  rw [if_neg (not_not.mpr maxBlocks), decodePublicHashBoolMap_encode]
  dsimp only
  rw [keys, if_neg (not_not.mpr rfl), known, if_neg Bool.false_ne_true, LawfulDecoder.uint32]
  dsimp only
  rw [decoded]

variable [HashFunction] [Account Acc] [FormulatorAccount Acc] [HeaderCodec]

def saveAll : List (Block Tx × UInt32 × ContextData Acc Ev) → StoredConsensus →
    List (Except Err Bytes) × StoredConsensus
  | [], cs => ([], cs)
  | (b, targetHeight, top) :: rest, cs =>
    let (result, cs) := cs.onSaveData b targetHeight top
    let (results, cs) := saveAll rest cs
    (result :: results, cs)

omit [Decoder] [LawfulDecoder] in
theorem saveAll_same {low other : StoredConsensus}
    (simulates : low.Simulates cs) (simulates' : other.Simulates cs)
    (calls : List (Block Tx × UInt32 × ContextData Acc Ev)) :
    (saveAll calls low).1 = (saveAll calls other).1 ∧
      (saveAll calls low).2.SameAnswers (saveAll calls other).2 := by
  induction calls generalizing low other cs with
  | nil => exact ⟨rfl, simulates.sameAnswers simulates'⟩
  | cons call rest ih =>
    obtain ⟨b, targetHeight, top⟩ := call
    have saved := onSaveData_same simulates b targetHeight top
    have saved' := onSaveData_same simulates' b targetHeight top
    have later := ih saved.2 saved'.2
    exact ⟨congrArg₂ cons (saved.1.trans saved'.1.symm) later.1, later.2⟩

/-- `saveAll` over values in place of shared rank objects. -/
def saveAllValues : List (Block Tx × UInt32 × ContextData Acc Ev) → Consensus →
    List (Except Err Bytes) × Consensus
  | [], cs => ([], cs)
  | (b, targetHeight, top) :: rest, cs =>
    let (result, cs) := cs.onSaveData b targetHeight top
    let (results, cs) := saveAllValues rest cs
    (result :: results, cs)

section

omit [Decoder] [LawfulDecoder]

variable (calls : List (Block Tx × UInt32 × ContextData Acc Ev))

theorem saveAll_simulates {low : StoredConsensus} (simulates : low.Simulates cs) :
    (saveAll calls low).1 = (saveAllValues calls cs).1 ∧
      (saveAll calls low).2.Simulates (saveAllValues calls cs).2 := by
  induction calls generalizing low cs with
  | nil => exact ⟨rfl, simulates⟩
  | cons call rest ih =>
    have saved := onSaveData_same simulates call.1 call.2.1 call.2.2
    have later := ih saved.2
    exact ⟨congrArg₂ cons saved.1 later.1, later.2⟩

/-- That `rankMap` and `candidates` share rank objects never shows: from the genesis on every
call answers as it does over values. -/
theorem objects_refine_values (maxBlocks targetHeight : UInt32) (keys : List PublicHash)
    (top : ContextData Acc Ev) :
    let low := (new maxBlocks keys).initGenesis targetHeight top
    let high := Consensus.initGenesis targetHeight top
      ⟨maxBlocks, 0, (new maxBlocks keys).observerKeyMap, .new⟩
    low.1 = high.1 ∧ (saveAll calls low.2).1 = (saveAllValues calls high.2).1 ∧
      (saveAll calls low.2).2.Simulates (saveAllValues calls high.2).2 := by
  have start : (new maxBlocks keys).Simulates ⟨maxBlocks, 0, _, .new⟩ :=
    ⟨rfl, rfl, rfl, .new, .nil⟩
  have genesis := initGenesis_same start targetHeight top
  exact ⟨genesis.1, saveAll_simulates calls genesis.2⟩

end

/-- The states of a node with the given parameters: after the genesis, after a block was
saved or failed to be, and after a restart. -/
inductive Lives (Acc Ev Tx : Type) [Account Acc] [FormulatorAccount Acc] (maxBlocks : UInt32)
    (keys : List PublicHash) : StoredConsensus → Prop
  | genesis (targetHeight : UInt32) (top : ContextData Acc Ev) :
      Lives Acc Ev Tx maxBlocks keys ((new maxBlocks keys).initGenesis targetHeight top).2
  | save {cs : StoredConsensus} (b : Block Tx) (targetHeight : UInt32) (top : ContextData Acc Ev)
      (reached : Lives Acc Ev Tx maxBlocks keys cs) :
      Lives Acc Ev Tx maxBlocks keys (cs.onSaveData b targetHeight top).2
  | restart {cs : StoredConsensus} (reached : Lives Acc Ev Tx maxBlocks keys cs) :
      Lives Acc Ev Tx maxBlocks keys ((new maxBlocks keys).onLoadChain cs.buildSaveData).2

theorem Lives.simulates {maxBlocks : UInt32} {keys : List PublicHash} {low : StoredConsensus}
    (reached : Lives Acc Ev Tx maxBlocks keys low) :
    ∃ cs, low.Simulates cs ∧ cs.parameters =
      ((new maxBlocks keys).maxBlocksPerFormulator, (new maxBlocks keys).observerKeyMap) := by
  induction reached with
  | genesis targetHeight top =>
    have start : (new maxBlocks keys).Simulates
        ⟨maxBlocks, 0, (new maxBlocks keys).observerKeyMap, .new⟩ :=
      ⟨rfl, rfl, rfl, .new, .nil⟩
    exact ⟨_, (initGenesis_same start targetHeight top).2, Consensus.initGenesis_parameters _ _ _⟩
  | save b targetHeight top _ ih =>
    obtain ⟨cs, simulates, parameters⟩ := ih
    exact ⟨_, (onSaveData_same simulates b targetHeight top).2,
      (Consensus.onSaveData_parameters b targetHeight top cs).trans parameters⟩
  | restart _ ih =>
    obtain ⟨cs, simulates, parameters⟩ := ih
    obtain ⟨loaded, done, simulates'⟩ := simulates.onLoadChain parameters
    refine ⟨cs, ?_, parameters⟩
    rw [show (new maxBlocks keys).onLoadChain _ = _ from done]
    exact simulates'

/-- A node that is started again loads what it saved, answers as before, and goes on as it
would have without the restart. -/
theorem restart_unobservable {maxBlocks : UInt32} {keys : List PublicHash} {cs : StoredConsensus}
    (reached : Lives Acc Ev Tx maxBlocks keys cs) :
    ∃ loaded, (new maxBlocks keys).onLoadChain cs.buildSaveData = (.ok (), loaded) ∧
      loaded.SameAnswers cs ∧
      ∀ calls : List (Block Tx × UInt32 × ContextData Acc Ev),
        (saveAll calls loaded).1 = (saveAll calls cs).1 ∧
          (saveAll calls loaded).2.SameAnswers (saveAll calls cs).2 := by
  obtain ⟨high, simulates, parameters⟩ := reached.simulates
  obtain ⟨loaded, done, simulates'⟩ := simulates.onLoadChain parameters
  exact ⟨loaded, done, simulates'.sameAnswers simulates, saveAll_same simulates' simulates⟩

end StoredConsensus

end Fleta.Pof

namespace Fleta.RestartInstances

open Pof Instances RankInstances ByteOrder

scoped instance : Msgpack where
  encodeArrayLen length := frame (List.replicate length 0)
  encodeBytes := frame
  encodeString := frame
  encodeUint8 value := [value]
  encodeUint16 value := littleEndian 2 value.toNat
  encodeUint64 value := littleEndian 8 value.toNat
  encodeUTXO utxo := littleEndian 8 utxo.id.toNat

scoped instance : Decoder where
  decodeUint32 bytes := .ok (UInt32.ofNat (fromLittleEndian (bytes.take 4)), bytes.drop 4)
  decodeBytes bytes := .ok (unframe bytes)
  decodeArrayLen bytes := .ok ((unframe bytes).1.length, (unframe bytes).2)
  encodeBool value := [if value then 1 else 0]
  decodeBool bytes := .ok (bytes.head? == some 1, bytes.tail)

scoped instance : Codec where
  encodeUint32 value := littleEndian 4 value.toNat
  decodeUint32 bytes := .ok (UInt32.ofNat (fromLittleEndian (bytes.take 4)))
  encodePublicHashBoolMap map := Msgpack.encodeArrayLen map.eachAll.length ++
    map.eachAll.flatMap fun entry => Msgpack.encodeBytes entry.1 ++ Decoder.encodeBool entry.2
  marshalBlockSign s := frame s.headerHash ++ s.generatorSignature

instance : LawfulDecoder where
  uint32 value rest := by
    have length : (littleEndian 4 value.toNat).length = 4 := length_littleEndian _ _
    change Except.ok (UInt32.ofNat (fromLittleEndian ((littleEndian 4 value.toNat ++ rest).take 4)),
      (littleEndian 4 value.toNat ++ rest).drop 4) = _
    rw [List.take_left' length, List.drop_left' length, from_little_endian_of_fits value.toNat_lt,
      UInt32.ofNat_toNat]
  bytes value rest := congrArg Except.ok (unframe_frame value rest)
  arrayLen value rest := by
    change Except.ok ((unframe (frame (List.replicate value 0) ++ rest)).1.length,
      (unframe (frame (List.replicate value 0) ++ rest)).2) = _
    rw [unframe_frame, List.length_replicate]
  bool value rest := by
    cases value with
    | false => rfl
    | true => rfl
  publicHashBoolMap _ := rfl

def oneBlock : StoredConsensus :=
  (((StoredConsensus.new 2 [[7], [8]]).initGenesis 0 (layer [(0, 1, [1]), (0, 2, [2])])).2.onSaveData
    (turnBlock 1 (Address.new 0 1 0) 0) 1 (layer [])).2

/-- The second formulator goes on behind the first while a third is created. -/
theorem oneBlock_restarted :
    ∃ loaded, (StoredConsensus.new 2 [[7], [8]]).onLoadChain oneBlock.buildSaveData = (.ok (), loaded) ∧
      loaded.SameAnswers oneBlock ∧
      (loaded.onSaveData (turnBlock 2 (Address.new 0 2 0) 1) 2 (layer [(2, 1, [3])])).1 =
        (oneBlock.onSaveData (turnBlock 2 (Address.new 0 2 0) 1) 2 (layer [(2, 1, [3])])).1 := by
  have reached : StoredConsensus.Lives SingleAccount PlainEvent SetData 2 [[7], [8]] oneBlock :=
    .save (turnBlock 1 (Address.new 0 1 0) 0) 1 (layer [])
      (.genesis 0 (layer [(0, 1, [1]), (0, 2, [2])]))
  obtain ⟨loaded, done, same, later⟩ := StoredConsensus.restart_unobservable reached
  have next := later [(turnBlock 2 (Address.new 0 2 0) 1, 2, layer [(2, 1, [3])])]
  exact ⟨loaded, done, same, List.head_eq_of_cons_eq next.1⟩

end Fleta.RestartInstances
