import Fleta.Instances

/-!
# What the hash of a context binds

The text that is hashed for a layer puts the hashes of its maps between labels, and the keys
of what was deleted one behind the other. The hashes have a fixed width, the keys of data have
none, and nothing says how many of them there are. So two layers with the same hash have the
same content exactly if their deletions and events have the same numbers and lengths.
-/

namespace Fleta

open ByteOrder Msgpack EventCodec List

variable {Acc Ev : Type}

theorem flatten_injective {left right : List Bytes} (lengths : left.map length = right.map length)
    (same : left.flatten = right.flatten) : left = right := by
  induction left generalizing right with
  | nil => exact (map_eq_nil_iff.mp lengths.symm).symm
  | cons first rest ih =>
    cases right with
    | nil => cases lengths
    | cons other others =>
      rw [map_cons, map_cons, cons.injEq] at lengths
      obtain ⟨here, later⟩ := append_inj same lengths.1
      rw [here, ih lengths.2 later]

theorem lengths_of_width {Item : Type} {width : Nat} (piece : Item → Bytes)
    (fixed : ∀ item, (piece item).length = width) (items : List Item) :
    (items.map piece).map length = replicate items.length width := by
  rw [map_map, eq_replicate_iff]
  simp [fixed]

theorem map_of_flatten {Item : Type} {width : Nat} {piece : Item → Bytes}
    (fixed : ∀ item, (piece item).length = width) {left right : List Item}
    (count : left.length = right.length)
    (same : (left.map piece).flatten = (right.map piece).flatten) :
    left.map piece = right.map piece := by
  apply flatten_injective _ same
  rw [lengths_of_width piece fixed, lengths_of_width piece fixed, count]

theorem eq_of_map_eq {Item Image : Type} {f : Item → Image} {left right : List Item}
    (apart : ∀ a ∈ left, ∀ b ∈ right, f a = f b → a = b) (same : left.map f = right.map f) :
    left = right := by
  induction left generalizing right with
  | nil => exact (map_eq_nil_iff.mp same.symm).symm
  | cons first rest ih =>
    cases right with
    | nil => cases same
    | cons other others =>
      rw [map_cons, map_cons, cons.injEq] at same
      rw [apart first mem_cons_self other mem_cons_self same.1]
      rw [ih (fun a listed b listed' => apart a (.tail _ listed) b (.tail _ listed')) same.2]

def nibble (char : UInt8) : UInt8 := if char < 58 then char - 48 else char - 87

theorem nibble_digits (byte : UInt8) :
    nibble (hexString.digit (byte / 16)) * 16 + nibble (hexString.digit (byte % 16)) = byte := by
  have each : ∀ n < 256, nibble (hexString.digit (UInt8.ofNat n / 16)) * 16 +
      nibble (hexString.digit (UInt8.ofNat n % 16)) = UInt8.ofNat n := by
    decide +kernel
  have mine := each byte.toNat byte.toNat_lt
  rwa [UInt8.ofNat_toNat] at mine

theorem hexString_injective {left right : Hash256} (same : hexString left = hexString right) :
    left = right := by
  induction left generalizing right with
  | nil =>
    cases right with
    | nil => rfl
    | cons byte rest => cases same
  | cons byte rest ih =>
    cases right with
    | nil => cases same
    | cons other others =>
      change _ :: _ :: hexString rest = _ :: _ :: hexString others at same
      rw [cons.injEq, cons.injEq] at same
      rw [← nibble_digits byte, same.1, same.2.1, nibble_digits, ih same.2.2]

theorem length_hexString (hash : Hash256) : (hexString hash).length = 2 * hash.length := by
  induction hash with
  | nil => rfl
  | cons byte rest ih =>
    change (_ :: _ :: hexString rest).length = _
    rw [length_cons, length_cons, ih, length_cons]
    omega

namespace ContextData

section Shape

variable {Key Value : Type} [Ord Key] [Std.TransOrd Key]

def keyList (map : SortedMap Key Value) : List Key := map.eachAll.map Prod.fst

structure SameShape (left right : ContextData Acc Ev) : Prop where
  deletedAccounts : left.deletedAccountMap.len = right.deletedAccountMap.len
  deletedAccountData : (keyList left.deletedAccountDataMap).map length =
    (keyList right.deletedAccountDataMap).map length
  deletedUTXOs : left.deletedUTXOMap.len = right.deletedUTXOMap.len
  events : left.events.length = right.events.length
  deletedProcessData : (keyList left.deletedProcessDataMap).map length =
    (keyList right.deletedProcessDataMap).map length

structure SameContent (left right : ContextData Acc Ev) : Prop where
  accountMap : left.accountMap = right.accountMap
  accountNameMap : left.accountNameMap = right.accountNameMap
  accountDataMap : left.accountDataMap = right.accountDataMap
  processDataMap : left.processDataMap = right.processDataMap
  utxoMap : left.utxoMap = right.utxoMap
  createdUTXOMap : left.createdUTXOMap = right.createdUTXOMap
  deletedAccounts : keyList left.deletedAccountMap = keyList right.deletedAccountMap
  deletedAccountData : keyList left.deletedAccountDataMap = keyList right.deletedAccountDataMap
  deletedProcessData : keyList left.deletedProcessDataMap = keyList right.deletedProcessDataMap
  deletedUTXOs : keyList left.deletedUTXOMap = keyList right.deletedUTXOMap
  events : left.events = right.events

theorem length_keyList (map : SortedMap Key Value) : (keyList map).length = map.len := by
  rw [keyList, length_map, SortedMap.length_eachAll]

theorem SameContent.sameShape {left right : ContextData Acc Ev} (same : left.SameContent right) :
    left.SameShape right where
  deletedAccounts := by rw [← length_keyList, same.deletedAccounts, length_keyList]
  deletedAccountData := by rw [same.deletedAccountData]
  deletedUTXOs := by rw [← length_keyList, same.deletedUTXOs, length_keyList]
  events := by rw [same.events]
  deletedProcessData := by rw [same.deletedProcessData]

end Shape

variable [HashFunction] [Msgpack] [AccountCodec Acc] [TxOutCodec] [EventCodec Ev]

def encodings (ctd : ContextData Acc Ev) : List Bytes :=
  [encodeMap (fun addr => encodeBytes addr.bytes) encodeTypedAccount ctd.accountMap,
    encodeMap encodeString (fun addr => encodeBytes addr.bytes) ctd.accountNameMap,
    encodeMap encodeString encodeBytes ctd.accountDataMap,
    encodeMap encodeUint64 encodeUTXO ctd.utxoMap,
    encodeMap encodeUint64 TxOutCodec.marshal ctd.createdUTXOMap,
    encodeMap encodeString encodeBytes ctd.processDataMap]

def pieces (env : Env) (ctd : ContextData Acc Ev) : List Bytes :=
  [label "ChainID" ++ [env.chainID] ++ label "ChainName" ++ env.name ++
      label "ChainVersion" ++ littleEndian 2 env.version.toNat ++
      label "Height" ++ littleEndian 4 env.targetHeight.toNat ++
      label "PrevHash" ++ env.lastHash ++ label "AccountMap",
    mapHash (fun addr => encodeBytes addr.bytes) encodeTypedAccount ctd.accountMap,
    label "DeletedAccountMap", ((keyList ctd.deletedAccountMap).map Address.bytes).flatten,
    label "AccountNameMap",
    mapHash encodeString (fun addr => encodeBytes addr.bytes) ctd.accountNameMap,
    label "AccountDataMap", mapHash encodeString encodeBytes ctd.accountDataMap,
    label "DeletedAccountDataMap", (keyList ctd.deletedAccountDataMap).flatten,
    label "UTXOMap", mapHash encodeUint64 encodeUTXO ctd.utxoMap,
    label "CreatedUTXOMap", mapHash encodeUint64 TxOutCodec.marshal ctd.createdUTXOMap,
    label "DeletedUTXOMap",
    ((keyList ctd.deletedUTXOMap).map fun id => littleEndian 8 id.toNat).flatten,
    label "Events", (ctd.events.map fun event => HashFunction.hash (marshal event)).flatten,
    label "ProcessDataMap", mapHash encodeString encodeBytes ctd.processDataMap,
    label "DeletedProcessDataMap", (keyList ctd.deletedProcessDataMap).flatten]

theorem hash_eq_pieces (env : Env) (ctd : ContextData Acc Ev) :
    ctd.hash env = doubleHash (pieces env ctd).flatten := by
  simp only [hash, pieces, keyList, flatten_cons, flatten_nil, append_nil,
    append_assoc, flatMap_def, map_map, Function.comp_def]

def hashedTexts (env : Env) (ctd : ContextData Acc Ev) : List Bytes :=
  (pieces env ctd).flatten :: HashFunction.hash (pieces env ctd).flatten ::
    (encodings ctd ++ ctd.events.map marshal)

/-- Hashes have a fixed width, no text that is hashed for one layer has the hash of another one
of the other layer, and the encodings tell their maps and their events apart. -/
structure CollisionFree (env : Env) (left right : ContextData Acc Ev) : Prop where
  width : ∀ bytes, (HashFunction.hash bytes).length = 32
  hashes : ∀ a ∈ hashedTexts env left, ∀ b ∈ hashedTexts env right,
    HashFunction.hash a = HashFunction.hash b → a = b
  maps : encodings left = encodings right → left.accountMap = right.accountMap ∧
    left.accountNameMap = right.accountNameMap ∧ left.accountDataMap = right.accountDataMap ∧
    left.utxoMap = right.utxoMap ∧ left.createdUTXOMap = right.createdUTXOMap ∧
    left.processDataMap = right.processDataMap
  events : left.events.map marshal = right.events.map marshal →
    left.events = right.events

variable {env : Env} {left right : ContextData Acc Ev}

theorem pieces_lengths (free : CollisionFree env left right) (shape : left.SameShape right) :
    (pieces env left).map length = (pieces env right).map length := by
  have addresses := lengths_of_width Address.bytes fun addr => addr.2
  have ids := lengths_of_width (fun id : UInt64 => littleEndian 8 id.toNat)
    fun _ => length_littleEndian ..
  have hashes := lengths_of_width (fun event : Ev => HashFunction.hash (marshal event))
    fun _ => free.width _
  simp only [pieces, map_cons, map_nil, mapHash, length_hexString, free.width,
    length_flatten, addresses, ids, hashes, length_keyList, shape.deletedAccounts,
    shape.deletedAccountData, shape.deletedUTXOs, shape.events, shape.deletedProcessData]

/-- Two layers with the same hash have the same content exactly if they have the same shape. -/
theorem hash_binding_iff (free : CollisionFree env left right)
    (same : left.hash env = right.hash env) : left.SameContent right ↔ left.SameShape right := by
  refine ⟨SameContent.sameShape, fun shape => ?_⟩
  have text : (pieces env left).flatten = (pieces env right).flatten := by
    rw [hash_eq_pieces, hash_eq_pieces] at same
    apply free.hashes _ (by simp [hashedTexts]) _ (by simp [hashedTexts])
    exact free.hashes _ (by simp [hashedTexts]) _ (by simp [hashedTexts]) same
  have parts := flatten_injective (pieces_lengths free shape) text
  simp only [pieces, cons.injEq, true_and, and_true] at parts
  obtain ⟨accounts, deletedAccounts, names, accountData, deletedAccountData, utxos, created,
    deletedUTXOs, events, processData, deletedProcessData⟩ := parts
  have encoded : ∀ a ∈ encodings left, ∀ b ∈ encodings right,
      hexString (HashFunction.hash a) = hexString (HashFunction.hash b) → a = b := by
    intro a listed b listed' hashed
    exact free.hashes a (by simp [hashedTexts, listed]) b (by simp [hashedTexts, listed'])
      (hexString_injective hashed)
  have encodings : encodings left = encodings right := by
    simp only [encodings, cons.injEq, and_true]
    refine ⟨encoded _ ?_ _ ?_ accounts, encoded _ ?_ _ ?_ names, encoded _ ?_ _ ?_ accountData,
      encoded _ ?_ _ ?_ utxos, encoded _ ?_ _ ?_ created, encoded _ ?_ _ ?_ processData⟩
    all_goals simp [ContextData.encodings]
  obtain ⟨accountMap, accountNameMap, accountDataMap, utxoMap, createdUTXOMap, processDataMap⟩ :=
    free.maps encodings
  have accountCount : (keyList left.deletedAccountMap).length =
      (keyList right.deletedAccountMap).length := by
    rw [length_keyList, length_keyList, shape.deletedAccounts]
  have utxoCount : (keyList left.deletedUTXOMap).length = (keyList right.deletedUTXOMap).length := by
    rw [length_keyList, length_keyList, shape.deletedUTXOs]
  have hashes := map_of_flatten (fun event : Ev => free.width (marshal event))
    shape.events events
  have hashed : ∀ a ∈ left.events.map marshal, ∀ b ∈ right.events.map marshal,
        HashFunction.hash a = HashFunction.hash b → a = b := by
    intro a listed b listed'
    apply free.hashes a _ b _
    · exact .tail _ (.tail _ (mem_append_right _ listed))
    · exact .tail _ (.tail _ (mem_append_right _ listed'))
  exact {
    accountMap, accountNameMap, accountDataMap, processDataMap, utxoMap, createdUTXOMap
    deletedAccounts := eq_of_map_eq (fun _ _ _ _ => Address.eq_of_bytes_eq)
      (map_of_flatten (fun addr => addr.2) accountCount deletedAccounts)
    deletedAccountData := flatten_injective shape.deletedAccountData deletedAccountData
    deletedProcessData := flatten_injective shape.deletedProcessData deletedProcessData
    deletedUTXOs := eq_of_map_eq
      (fun a _ b _ same => UInt64.toNat_inj.mp (little_endian_injective a.toNat_lt b.toNat_lt same))
      (map_of_flatten (fun _ => length_littleEndian ..) utxoCount deletedUTXOs)
    events := free.events (eq_of_map_eq hashed (by rw [map_map, map_map]; exact hashes)) }

end ContextData

namespace JoinedKeys

open Instances ContextData

scoped instance (priority := 3000) : HashFunction where
  hash bytes := 7 :: (bytes ++ replicate 31 0).take 31

theorem hash_width (bytes : Bytes) : (HashFunction.hash bytes).length = 32 := by
  simp [HashFunction.hash]

def someEnv : Env := (Context.new (someDatabase.toLoader someStatus : Loader SingleAccount) :
  Context SingleAccount PlainEvent).env

def deleting (names : List Bytes) : ContextData SingleAccount PlainEvent :=
  names.foldl (fun ctd name => ctd.setProcessData (processDataKey 1 name) []) (.new none)

/-- The order of the deletions does not matter. -/
theorem reordered_keys_same_content :
    (deleting [[97], [98]]).SameContent (deleting [[98], [97]]) := by
  have free : CollisionFree someEnv (deleting [[97], [98]]) (deleting [[98], [97]]) := by
    refine ⟨hash_width, ?_, fun _ => ?_, fun _ => rfl⟩
    · decide +kernel
    · exact ⟨rfl, rfl, rfl, rfl, rfl, rfl⟩
  apply (hash_binding_iff free (by decide +kernel)).mpr
  exact ⟨rfl, by decide +kernel, rfl, rfl, by decide +kernel⟩

/-- The keys `1 a` and `1 b` read as the key of the name `a 1 b`. -/
theorem joined_keys_collide :
    CollisionFree someEnv (deleting [[97, 1, 98]]) (deleting [[97], [98]]) ∧
      (deleting [[97, 1, 98]]).hash someEnv = (deleting [[97], [98]]).hash someEnv ∧
      ¬(deleting [[97, 1, 98]]).SameContent (deleting [[97], [98]]) := by
  refine ⟨⟨hash_width, ?_, fun _ => ?_, fun _ => rfl⟩, ?_, ?_⟩
  · decide +kernel
  · exact ⟨rfl, rfl, rfl, rfl, rfl, rfl⟩
  · decide +kernel
  · intro same
    have keys := same.deletedProcessData
    revert keys
    decide +kernel

end JoinedKeys

end Fleta
