import Fleta.ContextHash

/-!
# Headers, blocks and transactions

A transaction is known by its timestamp, its encoding and the two programs it runs,
`Validate` and `Execute`. Its type number is kept beside it in the block; the high byte
is the id of the process it belongs to.
-/

namespace Fleta

structure Header where
  chainID : UInt8
  version : UInt16
  height : UInt32
  prevHash : Hash256
  levelRootHash : Hash256
  contextHash : Hash256
  timestamp : UInt64
  generator : Address
  consensusData : Bytes
deriving DecidableEq

structure Block (Tx : Type) where
  header : Header
  transactionTypes : List UInt16
  transactions : List Tx
  transactionSignatures : List (List Signature)
  signatures : List Signature
deriving DecidableEq

class HeaderCodec where
  marshal : Header → Bytes

def Header.hash [HashFunction] [HeaderCodec] (header : Header) : Hash256 :=
  HashFunction.hash (HeaderCodec.marshal header)

/-- A transaction type: its programs are given the process id its number names. -/
class Transaction (Acc Ev : outParam Type) (Tx : Type) where
  timestamp : Tx → UInt64
  marshal : Tx → Bytes
  validate : Tx → UInt8 → List PublicHash → Prog Acc Ev
  execute : Tx → UInt8 → UInt16 → Prog Acc Ev

/-- `uint8(t >> 8)`. -/
def processOf (t : UInt16) : UInt8 := (t / 256).toUInt8

variable {Acc Ev Tx : Type}

section Hash

variable [HashFunction] [Msgpack] [Transaction Acc Ev Tx]

def hashTransactionByType (chainID : UInt8) (t : UInt16) (tx : Tx) : Hash256 :=
  HashFunction.hash
    (Msgpack.encodeUint8 chainID ++ Msgpack.encodeUint16 t ++ Transaction.marshal tx)

end Hash

variable [HashFunction]

def hashPerLevel : Nat := 16

/-- The bytes of `fletablockchain` written between the hashes of one node. -/
def levelHashAppender : Bytes := [102, 108, 101, 116, 97, 98, 108, 111, 99, 107, 99, 104, 97, 105, 110]

/-- `hash16`: missing hashes are written as zero hashes. -/
def hash16 (list : List Hash256) : Except Err Hash256 :=
  if list.length > hashPerLevel then .error .exceedHashCount
  else
    .ok <| doubleHash <| (List.range hashPerLevel).flatMap fun i =>
      list.getD i (List.replicate 32 0) ++ (levelHashAppender.drop i).take 1

def levelGroups : Nat → List Hash256 → List (List Hash256)
  | 0, _ => []
  | _, [] => []
  | fuel + 1, list => list.take hashPerLevel :: levelGroups fuel (list.drop hashPerLevel)

def buildLevel (list : List Hash256) : Except Err (List Hash256) :=
  (levelGroups list.length list).mapM hash16

def buildLevelRoot (list : List Hash256) : Except Err Hash256 :=
  if list.length > 65536 then .error .exceedHashCount
  else if list.length = 0 then .error .invalidHashCount
  else do
    let lv3 ← buildLevel list
    let lv2 ← buildLevel lv3
    let lv1 ← buildLevel lv2
    hash16 lv1

end Fleta
