import Fleta.Chain

/-!
# Concrete accounts, events and encodings

The development is generic in the account, event and transaction types, their encodings,
the hash and the base58 package. This module gives one instance of each, so that the
general results can be evaluated: the vault's `SingleAccount`, events that carry only
their number and a payload, a transaction that sets process data, a self-delimiting
encoding and the identity as a hash without collisions. The instances are scoped and
play no part in the general results.
-/

namespace Fleta.Instances

def frame (bytes : Bytes) : Bytes := List.replicate bytes.length 1 ++ 0 :: bytes

def unframe (input : Bytes) : Bytes × Bytes :=
  let length := (input.takeWhile (· == 1)).length
  let rest := input.drop (length + 1)
  (rest.take length, rest.drop length)

theorem unframe_frame (bytes suffix : Bytes) :
    unframe (frame bytes ++ suffix) = (bytes, suffix) := by
  have counted : ((frame bytes ++ suffix).takeWhile (· == 1)).length = bytes.length := by
    simp [frame]
  have rest : (frame bytes ++ suffix).drop (bytes.length + 1) = bytes ++ suffix := by
    simp [frame, List.drop_append]
  simp only [unframe, counted, rest, List.take_left, List.drop_left]

structure SingleAccount where
  address : Address
  name : Bytes
  keyHash : PublicHash
deriving DecidableEq

scoped instance : Account SingleAccount where
  address acc := acc.address
  name acc := acc.name

scoped instance : AccountCodec SingleAccount where
  typeOf _ := 1
  marshal acc := frame acc.address.bytes ++ (frame acc.name ++ acc.keyHash)
  unmarshal _ bytes :=
    let (addr, rest) := unframe bytes
    let (name, keyHash) := unframe rest
    .ok ⟨Database.addressOf addr, name, keyHash⟩
  unmarshal_marshal acc := by simp [unframe_frame]

def signedTxOut (out : TxOut) : Bytes :=
  (if out.amount < 0 then 1 else 0) ::
    (frame (List.replicate out.amount.natAbs 0) ++ out.publicHash)

def unsignedTxOut : Bytes → Except Err TxOut
  | [] => .error .invalidTransactionCount
  | sign :: bytes =>
    let (magnitude, publicHash) := unframe bytes
    .ok ⟨if sign = 1 then -magnitude.length else magnitude.length, publicHash⟩

theorem unsigned_signed (out : TxOut) : unsignedTxOut (signedTxOut out) = .ok out := by
  simp only [unsignedTxOut, signedTxOut, unframe_frame, List.length_replicate]
  by_cases negative : out.amount < 0
  · have magnitude : -(out.amount.natAbs : Int) = out.amount := by omega
    simp only [negative, if_true, magnitude]
  · have magnitude : (out.amount.natAbs : Int) = out.amount := by omega
    have positive : ¬(0 : UInt8) = 1 := by decide
    simp only [negative, positive, if_false, magnitude]

scoped instance : TxOutCodec where
  marshal := signedTxOut
  unmarshal := unsignedTxOut
  unmarshal_marshal := unsigned_signed

scoped instance : Base58 where
  encode bytes := bytes
  decode _ := none

structure PlainEvent where
  n : UInt16
  payload : Bytes
deriving DecidableEq

scoped instance : Event PlainEvent where
  setN n event := { event with n := n }

open ByteOrder

scoped instance : HashFunction where
  hash bytes := bytes

scoped instance : Msgpack where
  encodeArrayLen length := littleEndian 4 length
  encodeBytes := frame
  encodeString := frame
  encodeUint8 value := [value]
  encodeUint16 value := littleEndian 2 value.toNat
  encodeUint64 value := littleEndian 8 value.toNat
  encodeUTXO utxo := littleEndian 8 utxo.id.toNat ++ TxOutCodec.marshal utxo.toTxOut

scoped instance : EventCodec PlainEvent where
  marshal event := littleEndian 2 event.n.toNat ++ event.payload

scoped instance : HeaderCodec where
  marshal header := [header.chainID] ++ littleEndian 2 header.version.toNat ++
      littleEndian 4 header.height.toNat ++ frame header.prevHash ++
      frame header.levelRootHash ++ frame header.contextHash ++
      littleEndian 8 header.timestamp.toNat ++ header.generator.bytes ++ header.consensusData

/-- A transaction that sets process data to a value, which must not be empty. -/
structure SetData where
  timestamp : UInt64
  name : Bytes
  value : Bytes
deriving DecidableEq

scoped instance : Transaction SingleAccount PlainEvent SetData where
  timestamp tx := tx.timestamp
  marshal tx := littleEndian 8 tx.timestamp.toNat ++ frame tx.name ++ tx.value
  validate tx _ _ := .done (if tx.value = [] then .error .invalidTransactionCount else .ok ())
  execute tx pid _ := .setProcessData pid tx.name tx.value (.done (.ok ()))

def idle : Process SingleAccount PlainEvent SetData where
  beforeExecuteTransactions := .done (.ok ())
  afterExecuteTransactions _ := .done (.ok ())
  onSaveData _ := .done (.ok ())

def idleChain : Chain SingleAccount PlainEvent SetData where
  processes := []
  app := idle
  recoverPublicHash _ sig := .ok sig

def idleType : UInt16 := 0xFF00

def someAddress : Address := Address.new 0 1 0

def someAccount : SingleAccount := ⟨someAddress, [97], []⟩

def someDatabase : Database := Database.writeAccount .empty (someAddress, someAccount)

def someStatus : Database.Status where
  chainID := 1
  name := []
  version := 1
  targetHeight := 1
  lastHash := []
  lastTimestamp := 0
  timeSlotMap := .empty

end Fleta.Instances
