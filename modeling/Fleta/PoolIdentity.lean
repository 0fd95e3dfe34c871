import Fleta.TransactionPool

/-!
# The hash of a received transaction

A transaction message carries the encoding of its transaction. The pool takes the hash of
these bytes, and validators that of the decoded transaction, encoded again with their own
chain id. The decoder does not compare the chain id and ignores what follows the transaction.
So both are the same hash exactly if the bytes are the encoding that the validators make.
-/

namespace Fleta

variable {Acc Ev Tx : Type}

/-- The decoders of the msgpack package, each with the bytes that are left, and the factory of
the transactions, which knows some types. -/
class TransactionDecoder (Tx : Type) where
  decodeUint8 : Bytes → Option (UInt8 × Bytes)
  decodeUint16 : Bytes → Option (UInt16 × Bytes)
  decode : UInt16 → Bytes → Option (Tx × Bytes)

structure TransactionMessage (Tx : Type) where
  chainID : UInt8
  type : UInt16
  tx : Tx
  signatures : List Signature
  raw : Bytes

section Decode

variable [TransactionDecoder Tx]

def decodeTransaction (bs : Bytes) : Option (UInt8 × Tx × UInt16) :=
  match TransactionDecoder.decodeUint8 Tx bs with
  | none => none
  | some (chainID, bs) =>
    match TransactionDecoder.decodeUint16 Tx bs with
    | none => none
    | some (t, bs) => (TransactionDecoder.decode t bs).map fun (tx, _) => (chainID, tx, t)

def decodeMessage (bs : Bytes) (sigs : List Signature) : Option (TransactionMessage Tx) :=
  (decodeTransaction bs).map fun (chainID, tx, t) => ⟨chainID, t, tx, sigs, bs⟩

end Decode

section Hash

variable [HashFunction] [Msgpack] [Transaction Acc Ev Tx]

def encodeTransaction (chainID : UInt8) (t : UInt16) (tx : Tx) : Bytes :=
  Msgpack.encodeUint8 chainID ++ Msgpack.encodeUint16 t ++ Transaction.marshal tx

def TransactionMessage.txHash (chainID : UInt8) (msg : TransactionMessage Tx) : Hash256 :=
  if msg.raw.length > 0 then HashFunction.hash msg.raw
  else hashTransactionByType chainID msg.type msg.tx

def TransactionPool.cleanPool (chainID : UInt8) (b : Block Tx) (tp : TransactionPool Tx) :
    TransactionPool Tx :=
  (b.transactionTypes.zip b.transactions).foldl
    (fun tp entry => tp.remove (hashTransactionByType chainID entry.1 entry.2) entry.2) tp

/-- The pool knows the transaction by the hash that validators compute, and forgets it with a
block that has it. -/
structure Identified (chainID : UInt8) (msg : TransactionMessage Tx) (tp : TransactionPool Tx) :
    Prop where
  stored : ∃ item, tp.txhashMap.get (msg.txHash chainID) = some item ∧ item.transaction = msg.tx ∧
    item.txHash = hashTransactionByType chainID msg.type msg.tx
  cleaned : ∀ b : Block Tx, (msg.type, msg.tx) ∈ b.transactionTypes.zip b.transactions →
    (tp.cleanPool chainID b).isExist (msg.txHash chainID) = false

end Hash

namespace TransactionPool

section Remove

variable [Transaction Acc Ev Tx] {tp : TransactionPool Tx} {other : Hash256} {slot : UInt32}

theorem remove_isExist (gone : tp.isExist other = false) (txHash : Hash256) (tx : Tx) :
    (tp.remove txHash tx).isExist other = false := by
  rw [isExist, SortedMap.has_eq, Option.isSome_eq_false_iff, Option.isNone_iff_eq_none] at gone ⊢
  cases held : (tp.remove txHash tx).txhashMap.get other with
  | none => rfl
  | some item =>
    rw [within_remove txHash tx other item held] at gone
    cases gone

theorem remove_own {tx : Tx}
    (queued : (tp.slotMap.get (toTimeSlot (Transaction.timestamp tx))).isSome) (txHash : Hash256) :
    (tp.remove txHash tx).isExist txHash = false := by
  obtain ⟨q, found⟩ := Option.isSome_iff_exists.mp queued
  simp only [remove, found, isExist, SortedMap.has_eq, SortedMap.get_delete_self,
    Option.isSome_none]

theorem remove_queued (queued : (tp.slotMap.get slot).isSome) (txHash : Hash256) (tx : Tx) :
    ((tp.remove txHash tx).slotMap.get slot).isSome := by
  unfold remove
  dsimp only
  split
  · exact queued
  · rw [SortedMap.get_put]
    split
    · rfl
    · exact queued

theorem cleanPool_isExist [HashFunction] [Msgpack] (chainID : UInt8) {b : Block Tx} {t : UInt16}
    {tx : Tx} (listed : (t, tx) ∈ b.transactionTypes.zip b.transactions)
    (queued : (tp.slotMap.get (toTimeSlot (Transaction.timestamp tx))).isSome) :
    (tp.cleanPool chainID b).isExist (hashTransactionByType chainID t tx) = false := by
  have stays : ∀ (entries : List (UInt16 × Tx)) {tp : TransactionPool Tx},
      tp.isExist (hashTransactionByType chainID t tx) = false →
      (entries.foldl (fun tp entry => tp.remove (hashTransactionByType chainID entry.1 entry.2)
        entry.2) tp).isExist (hashTransactionByType chainID t tx) = false := by
    intro entries
    induction entries with
    | nil => exact fun gone => gone
    | cons entry rest ih => exact fun gone => ih (remove_isExist gone _ _)
  unfold cleanPool
  generalize b.transactionTypes.zip b.transactions = entries at listed ⊢
  induction entries generalizing tp with
  | nil => cases listed
  | cons entry rest ih =>
    rw [List.foldl_cons]
    rcases List.mem_cons.mp listed with rfl | later
    · exact stays rest (remove_own queued _)
    · exact ih (remove_queued queued _ _) later

end Remove

section Accept

variable [Account Acc] [Event Ev] [Base58] [Transaction Acc Ev Tx] {cn : Chain Acc Ev Tx}
  {tp tp' : TransactionPool Tx} {ctx : Context Acc Ev} {txHash : Hash256} {t : UInt16} {tx : Tx}
  {sigs : Option (List Signature)}

theorem addTx_ok (accepted : tp.addTx cn ctx txHash t tx sigs = (.ok (), tp')) :
    (∃ signers, tp'.txhashMap.get txHash = some ⟨t, txHash, tx, sigs, signers⟩) ∧
      (tp'.slotMap.get (toTimeSlot (Transaction.timestamp tx))).isSome := by
  unfold addTx at accepted
  split at accepted
  · cases accepted
  split at accepted
  · cases accepted
  split at accepted
  · cases accepted
  split at accepted
  · cases accepted
  unfold push at accepted
  split at accepted
  · cases accepted
  cases accepted
  exact ⟨⟨_, SortedMap.get_put_self ..⟩, by rw [SortedMap.get_put_self]; rfl⟩

/-- A received transaction that the pool accepts is identified exactly if its bytes are the
encoding with the chain id of the node. -/
theorem identified_iff [HashFunction] [Msgpack] [TransactionDecoder Tx] {chainID : UInt8}
    {raw : Bytes} {signatures : List Signature} {msg : TransactionMessage Tx}
    (decoded : decodeMessage raw signatures = some msg)
    (apart : HashFunction.hash raw = HashFunction.hash (encodeTransaction chainID msg.type msg.tx) →
      raw = encodeTransaction chainID msg.type msg.tx)
    (accepted : tp.addTx cn ctx (msg.txHash chainID) msg.type msg.tx (some msg.signatures) =
      (.ok (), tp')) :
    Identified chainID msg tp' ↔ raw = [] ∨ raw = encodeTransaction chainID msg.type msg.tx := by
  have own : msg.raw = raw := by
    obtain ⟨parts, _, rfl⟩ := Option.map_eq_some_iff.mp decoded
    rfl
  obtain ⟨⟨signers, held⟩, queued⟩ := addTx_ok accepted
  have same : msg.txHash chainID = hashTransactionByType chainID msg.type msg.tx ↔
      raw = [] ∨ raw = encodeTransaction chainID msg.type msg.tx := by
    unfold TransactionMessage.txHash
    rw [own]
    cases raw with
    | nil => simp
    | cons byte rest =>
      rw [if_pos (show (byte :: rest).length > 0 from Nat.succ_pos _)]
      simp only [reduceCtorEq, false_or]
      exact ⟨apart, fun canonical => congrArg HashFunction.hash canonical⟩
  rw [← same]
  constructor
  · intro identified
    obtain ⟨item, found, _, hash⟩ := identified.stored
    rw [held] at found
    cases found
    exact hash
  · intro canonical
    refine ⟨⟨_, held, rfl, canonical⟩, fun b listed => ?_⟩
    rw [canonical]
    exact cleanPool_isExist chainID listed queued

end Accept

namespace OtherChain

open Instances ByteOrder

scoped instance : TransactionDecoder SetData where
  decodeUint8
    | [] => none
    | value :: rest => some (value, rest)
  decodeUint16 bytes := some (UInt16.ofNat (fromLittleEndian (bytes.take 2)), bytes.drop 2)
  decode _ bytes :=
    let (name, value) := unframe (bytes.drop 8)
    some (⟨UInt64.ofNat (fromLittleEndian (bytes.take 8)), name, value⟩, [])

def someTx : SetData := ⟨0, [97], [98]⟩

def messageFor (chainID : UInt8) : TransactionMessage SetData :=
  ⟨chainID, idleType, someTx, [], encodeTransaction chainID idleType someTx⟩

def freshContext : Context SingleAccount PlainEvent :=
  Context.new (someDatabase.toLoader someStatus)

def poolAfter (chainID : UInt8) : TransactionPool SetData :=
  (TransactionPool.new.addTx idleChain freshContext ((messageFor chainID).txHash 1) idleType someTx
    (some [])).2

def someBlock : Block SetData where
  header := ⟨1, 1, 1, [], [], [], 0, someAddress, []⟩
  transactionTypes := [idleType]
  transactions := [someTx]
  transactionSignatures := [[]]
  signatures := []

theorem own_chain_identified : Identified 1 (messageFor 1) (poolAfter 1) := by
  have decoded : decodeMessage (messageFor 1).raw [] = some (messageFor 1) := rfl
  have accepted : TransactionPool.new.addTx idleChain freshContext ((messageFor 1).txHash 1)
      idleType someTx (some []) = (.ok (), poolAfter 1) := rfl
  exact (identified_iff decoded (fun same => same) accepted).mpr (.inr rfl)

/-- A transaction of chain 2 is accepted by a node of chain 1 under another hash than the one
of its validators, and stays in the pool when a block has it. -/
theorem other_chain_not_identified :
    decodeMessage (messageFor 2).raw [] = some (messageFor 2) ∧
      (TransactionPool.new.addTx idleChain freshContext ((messageFor 2).txHash 1) idleType someTx
        (some [])).1 = .ok () ∧
      (messageFor 2).txHash 1 ≠ hashTransactionByType 1 idleType someTx ∧
      ((poolAfter 2).cleanPool 1 someBlock).isExist ((messageFor 2).txHash 1) = true := by
  refine ⟨rfl, rfl, ?_, ?_⟩ <;> decide +kernel

end OtherChain

end TransactionPool

end Fleta
