import Fleta.Instances
import Fleta.ObserverInvariant

/-!
# Observers with concrete keys and encodings

The hash has no collisions, and is short for the nodes of a level root with one child.
Every field is written behind its length, and what is signed starts with a byte that tells
what it is. A signature is the key, some bytes that the signer chooses, and what is signed,
so that a key has many signatures for the same thing.
-/

namespace Fleta.ObserverInstances

open ByteOrder Pof Instances

def levelPadding : Bytes :=
  (List.range 15).flatMap fun i => List.replicate 32 0 ++ (levelHashAppender.drop (i + 1)).take 1

def shortHash (bytes : Bytes) : Hash256 :=
  let size := bytes.length - levelPadding.length
  if bytes.drop size = levelPadding then 1 :: bytes.take size else 0 :: bytes

theorem shortHash_injective : Function.Injective shortHash := by
  intro left right same
  unfold shortHash at same
  dsimp only at same
  split at same
  · rename_i padded
    split at same
    · rename_i padded'
      have whole := List.take_append_drop (left.length - levelPadding.length) left
      rw [padded, (List.cons.inj same).2] at whole
      have whole' := List.take_append_drop (right.length - levelPadding.length) right
      rw [padded'] at whole'
      exact whole.symm.trans whole'
    · exact absurd (List.cons.inj same).1 (by decide)
  · split at same
    · exact absurd (List.cons.inj same).1 (by decide)
    · exact (List.cons.inj same).2

attribute [irreducible] shortHash

scoped instance (priority := 2000) : HashFunction where
  hash := shortHash

def lengthBytes (length : Nat) : Bytes := littleEndian (length.log2 / 8 + 1) length

theorem lengthBytes_read (length : Nat) : fromLittleEndian (lengthBytes length) = length := by
  apply from_little_endian_of_fits
  have below : length < 2 ^ (length.log2 + 1) := Nat.lt_log2_self
  have wide : 2 ^ (length.log2 + 1) ≤ 2 ^ (8 * (length.log2 / 8 + 1)) :=
    Nat.pow_le_pow_right (by omega) (by omega)
  have bytes : (256 : Nat) ^ (length.log2 / 8 + 1) = 2 ^ (8 * (length.log2 / 8 + 1)) := by
    rw [Nat.pow_mul]
  omega

def field (bytes : Bytes) : Bytes := frame (lengthBytes bytes.length) ++ bytes

def unfield (input : Bytes) : Bytes × Bytes :=
  let (length, rest) := unframe input
  (rest.take (fromLittleEndian length), rest.drop (fromLittleEndian length))

theorem unfield_field (bytes suffix : Bytes) : unfield (field bytes ++ suffix) = (bytes, suffix) := by
  unfold unfield field
  rw [List.append_assoc, unframe_frame]
  dsimp only
  rw [lengthBytes_read, List.take_left, List.drop_left]

def fields (parts : List Bytes) : Bytes := parts.flatMap field

theorem fields_injective {left right : List Bytes} (same : fields left = fields right) :
    left = right := by
  have split : ∀ first rest, fields (first :: rest) = field first ++ fields rest := by
    intro first rest
    exact List.flatMap_cons
  have nonempty : ∀ first rest, fields (first :: rest) ≠ [] := by
    intro first rest
    rw [split, field, frame]
    simp
  induction left generalizing right with
  | nil =>
    cases right with
    | nil => rfl
    | cons first rest => exact absurd same.symm (nonempty first rest)
  | cons first rest ih =>
    cases right with
    | nil => exact absurd same (nonempty first rest)
    | cons other others =>
      rw [split, split] at same
      have parts := congrArg unfield same
      rw [unfield_field, unfield_field, Prod.mk.injEq] at parts
      rw [parts.1, ih parts.2]

def flag (value : Bool) : Bytes := if value then [1] else [0]

theorem flag_inj {left right : Bool} : flag left = flag right ↔ left = right := by
  cases left <;> cases right <;> decide

theorem littleEndian_inj {size left right : Nat} (leftFits : left < 256 ^ size)
    (rightFits : right < 256 ^ size) :
    littleEndian size left = littleEndian size right ↔ left = right :=
  ⟨little_endian_injective leftFits rightFits, congrArg _⟩

theorem uint16_inj {left right : UInt16} :
    littleEndian 2 left.toNat = littleEndian 2 right.toNat ↔ left = right := by
  rw [littleEndian_inj left.toNat_lt right.toNat_lt, UInt16.toNat_inj]

theorem uint32_inj {left right : UInt32} :
    littleEndian 4 left.toNat = littleEndian 4 right.toNat ↔ left = right := by
  rw [littleEndian_inj left.toNat_lt right.toNat_lt, UInt32.toNat_inj]

theorem uint64_inj {left right : UInt64} :
    littleEndian 8 left.toNat = littleEndian 8 right.toNat ↔ left = right := by
  rw [littleEndian_inj left.toNat_lt right.toNat_lt, UInt64.toNat_inj]

scoped instance (priority := 2000) : HeaderCodec where
  marshal header := fields [[header.chainID], littleEndian 2 header.version.toNat,
    littleEndian 4 header.height.toNat, header.prevHash, header.levelRootHash, header.contextHash,
    littleEndian 8 header.timestamp.toNat, header.generator.bytes, header.consensusData]

scoped instance : Codec where
  encodeUint32 value := littleEndian 4 value.toNat
  decodeUint32 bytes :=
    if bytes.length = 4 then .ok (UInt32.ofNat (fromLittleEndian bytes)) else .error .notExistKey
  encodePublicHashBoolMap map := fields (map.eachAll.map fun entry => flag entry.2 ++ entry.1)
  marshalBlockSign s := 0 :: fields [s.headerHash, s.generatorSignature]

scoped instance : MessageCodec where
  marshalRoundVote vote := 1 :: fields [[vote.chainID], vote.lastHash,
    littleEndian 4 vote.targetHeight.toNat, littleEndian 4 vote.timeoutCount.toNat,
    vote.formulator.bytes, vote.formulatorPublicHash, littleEndian 8 vote.timestamp.toNat,
    flag vote.isReply]
  marshalRoundVoteAck ack := 2 :: fields [[ack.chainID], ack.lastHash,
    littleEndian 4 ack.targetHeight.toNat, littleEndian 4 ack.timeoutCount.toNat,
    ack.formulator.bytes, ack.formulatorPublicHash, ack.publicHash,
    littleEndian 8 ack.timestamp.toNat, flag ack.isReply]
  marshalBlockVote vote := 3 :: fields [littleEndian 4 vote.targetHeight.toNat,
    HeaderCodec.marshal vote.header, vote.generatorSignature, vote.observerSignature,
    flag vote.isReply]
  marshalBlockGenRequest request := 4 :: fields [[request.chainID], request.lastHash,
    littleEndian 4 request.targetHeight.toNat, littleEndian 4 request.timeoutCount.toNat,
    request.formulator.bytes, request.formulatorPublicHash, request.publicHash,
    littleEndian 8 request.timestamp.toNat]

scoped instance : FormulatorAccount SingleAccount where
  formulator _ := none

theorem address_inj {left right : Address} : left.bytes = right.bytes ↔ left = right :=
  ⟨Address.eq_of_bytes_eq, fun same => same ▸ rfl⟩

theorem header_marshal_inj {left right : Header} :
    HeaderCodec.marshal left = HeaderCodec.marshal right ↔ left = right := by
  constructor
  · intro same
    have parts := fields_injective same
    simp only [List.cons.injEq, uint16_inj, uint32_inj, uint64_inj, address_inj, and_true] at parts
    cases left
    cases right
    rw [Header.mk.injEq]
    exact parts
  · exact congrArg _

theorem header_hash_injective : Function.Injective Header.hash :=
  fun _ _ same => header_marshal_inj.mp (shortHash_injective same)

theorem digest_injective : Function.Injective Signable.digest := by
  intro left right same
  have bytes : ∀ {first other : UInt8} {parts others : List Bytes},
      shortHash (first :: fields parts) = shortHash (other :: fields others) →
        first = other ∧ parts = others := by
    intro first other parts others same
    have read := List.cons.inj (shortHash_injective same)
    exact ⟨read.1, fields_injective read.2⟩
  -- two kinds differ in the first byte; only the five pairs of one kind are left
  cases left <;> cases right <;>
    first | exact absurd (bytes same).1 (by decide) | have parts := (bytes same).2
  all_goals
    rename_i own other
    simp only [List.cons.injEq, uint32_inj, uint64_inj, flag_inj, address_inj,
      header_marshal_inj, and_true] at parts
    cases own
    cases other
    simp_all

def signWith (nonce : Bytes) (key : PublicHash) (digest : Hash256) : Signature :=
  field key ++ (field nonce ++ digest)

def recoverKey (digest : Hash256) (sig : Signature) : Except Err PublicHash :=
  let (key, rest) := unfield sig
  let (_, signed) := unfield rest
  if signed = digest then .ok key else .error .invalidSignature

theorem recoverKey_signWith {nonce digest digest' : Bytes} {key signer : PublicHash}
    (recovered : recoverKey digest' (signWith nonce key digest) = .ok signer) :
    signer = key ∧ digest' = digest := by
  unfold recoverKey signWith at recovered
  simp only [unfield_field] at recovered
  split at recovered
  · rename_i same
    cases recovered
    exact ⟨rfl, same.symm⟩
  · cases recovered

def observerSetup : Setup SingleAccount PlainEvent SetData where
  cn := { idleChain with recoverPublicHash := recoverKey }
  sign key digest := .ok (signWith [] key digest)

variable (keys : SortedMap PublicHash Bool)

theorem observerSetup_signing : ObserverNode.Signing observerSetup keys where
  digest_injective := digest_injective
  hash_injective := header_hash_injective
  sign_recover key digest sig made digest' signer recovered _ := by
    have own : sig = signWith [] key digest := (Except.ok.inj made).symm
    have read : recoverKey digest' sig = .ok signer := recovered
    rw [own] at read
    exact recoverKey_signWith read

def threeKeys : SortedMap PublicHash Bool :=
  ((SortedMap.empty.put [1] true).put [2] true).put [3] true

def firstLedger : Ledger SetData where
  store := {
    chainID := 1
    name := []
    version := 1
    db := someDatabase
    dbHeight := 0
    genesisHash := []
    blocks := []
    cache := none
    timeSlotMap := .empty }
  cs := {
    maxBlocksPerFormulator := 1
    blocksBySameFormulator := 0
    observerKeyMap := threeKeys
    rt := ⟨0, [⟨someAddress, [9], 0, []⟩]⟩ }

def someAmbient : Ambient where
  now := 10 * second
  formulatorMap := [someAddress]
  formulatorHeight _ := some 0
  peers := []
  requested _ := false
  order keys := keys
  order_perm _ := .rfl

def firstBlock : Block SetData where
  header := {
    chainID := 1
    version := 1
    height := 1
    prevHash := []
    levelRootHash := (buildLevelRoot [[]]).toOption.getD []
    contextHash := (Context.new firstLedger.store.loader : Context SingleAccount PlainEvent).hash.1
    timestamp := 9 * second
    generator := someAddress
    consensusData := [0, 0, 0, 0] }
  transactionTypes := []
  transactions := []
  transactionSignatures := []
  signatures := []

def firstBlockGen (nonce : Bytes) : BlockGenMessage SetData where
  block := firstBlock
  generatorSignature := signWith nonce [9] firstBlock.header.hash
  isReply := false

def firstVote : RoundVote where
  chainID := 1
  lastHash := []
  targetHeight := 1
  timeoutCount := 0
  formulator := someAddress
  formulatorPublicHash := [9]
  timestamp := 10 * second
  isReply := false

def firstAck : RoundVoteAck where
  chainID := 1
  lastHash := []
  targetHeight := 1
  timeoutCount := 0
  formulator := someAddress
  formulatorPublicHash := [9]
  publicHash := [1]
  timestamp := 10 * second
  isReply := false

def roundVoteOf (key : PublicHash) : Message SetData :=
  .roundVote ⟨firstVote, signWith [] key (Signable.digest (.roundVote firstVote))⟩

def roundVoteAckOf (key : PublicHash) : Message SetData :=
  .roundVoteAck ⟨firstAck, signWith [] key (Signable.digest (.roundVoteAck firstAck))⟩

def blockVoteOf (nonce : Bytes) (key : PublicHash) : Message SetData :=
  let gen := firstBlockGen nonce
  let vote : BlockVote := {
    targetHeight := 1
    header := gen.block.header
    generatorSignature := gen.generatorSignature
    observerSignature :=
      signWith [] key (BlockSign.hash ⟨gen.block.header.hash, gen.generatorSignature⟩)
    isReply := false }
  .blockVote ⟨vote, signWith [] key (Signable.digest (.blockVote vote))⟩

end Fleta.ObserverInstances
