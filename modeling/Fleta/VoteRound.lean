import Fleta.PofConsensus

/-!
# Messages and rounds of the observers

An observer goes through a round for the next height: it votes for a formulator,
acknowledges the vote of the majority, waits for the block and votes for it. The data
of a round also keeps what arrived too early.
-/

namespace Fleta.Pof

variable {Acc Ev Tx : Type}

structure RoundVote where
  chainID : UInt8
  lastHash : Hash256
  targetHeight : UInt32
  timeoutCount : UInt32
  formulator : Address
  formulatorPublicHash : PublicHash
  timestamp : UInt64
  isReply : Bool
deriving DecidableEq

structure RoundVoteMessage where
  roundVote : RoundVote
  signature : Signature
deriving DecidableEq

structure RoundVoteAck where
  chainID : UInt8
  lastHash : Hash256
  targetHeight : UInt32
  timeoutCount : UInt32
  formulator : Address
  formulatorPublicHash : PublicHash
  publicHash : PublicHash
  timestamp : UInt64
  isReply : Bool
deriving DecidableEq

structure RoundVoteAckMessage where
  roundVoteAck : RoundVoteAck
  signature : Signature
deriving DecidableEq

structure BlockReqMessage where
  prevHash : Hash256
  targetHeight : UInt32
  timeoutCount : UInt32
  formulator : Address
  formulatorPublicHash : PublicHash
deriving DecidableEq

structure BlockGenMessage (Tx : Type) where
  block : Block Tx
  generatorSignature : Signature
  isReply : Bool
deriving DecidableEq

structure BlockVote where
  targetHeight : UInt32
  header : Header
  generatorSignature : Signature
  observerSignature : Signature
  isReply : Bool
deriving DecidableEq

structure BlockVoteMessage where
  blockVote : BlockVote
  signature : Signature
deriving DecidableEq

structure BlockObSignMessage where
  targetHeight : UInt32
  blockSign : BlockSign
  observerSignatures : List Signature
deriving DecidableEq

structure BlockGenRequest where
  chainID : UInt8
  lastHash : Hash256
  targetHeight : UInt32
  timeoutCount : UInt32
  formulator : Address
  formulatorPublicHash : PublicHash
  publicHash : PublicHash
  timestamp : UInt64
deriving DecidableEq

structure BlockGenRequestMessage where
  blockGenRequest : BlockGenRequest
  signature : Signature
deriving DecidableEq

structure StatusMessage where
  version : UInt16
  height : UInt32
  lastHash : Hash256
deriving DecidableEq

structure RequestMessage where
  height : UInt32
  count : UInt8
deriving DecidableEq

inductive Message (Tx : Type) where
  | roundVote (msg : RoundVoteMessage)
  | roundVoteAck (msg : RoundVoteAckMessage)
  | blockReq (msg : BlockReqMessage)
  | blockGen (msg : BlockGenMessage Tx)
  | blockVote (msg : BlockVoteMessage)
  | blockObSign (msg : BlockObSignMessage)
  | blockGenRequest (msg : BlockGenRequestMessage)
  | status (msg : StatusMessage)
  | request (msg : RequestMessage)
  | blocks (list : List (Block Tx))

def Message.signatures : Message Tx → List Signature
  | roundVote msg => [msg.signature]
  | roundVoteAck msg => [msg.signature]
  | blockReq _ => []
  | blockGen msg => msg.generatorSignature :: msg.block.signatures
  | blockVote msg => [msg.blockVote.generatorSignature, msg.blockVote.observerSignature, msg.signature]
  | blockObSign msg => msg.blockSign.generatorSignature :: msg.observerSignatures
  | blockGenRequest msg => [msg.signature]
  | status _ => []
  | request _ => []
  | blocks list => list.flatMap Block.signatures

inductive Signable where
  | roundVote (vote : RoundVote)
  | roundVoteAck (ack : RoundVoteAck)
  | blockSign (s : BlockSign)
  | blockVote (vote : BlockVote)
  | blockGenRequest (request : BlockGenRequest)
deriving DecidableEq

def Signable.isBlockSign : Signable → Bool
  | blockSign _ => true
  | _ => false

class MessageCodec where
  marshalRoundVote : RoundVote → Bytes
  marshalRoundVoteAck : RoundVoteAck → Bytes
  marshalBlockVote : BlockVote → Bytes
  marshalBlockGenRequest : BlockGenRequest → Bytes

def Signable.digest [HashFunction] [Codec] [MessageCodec] : Signable → Hash256
  | roundVote vote => HashFunction.hash (MessageCodec.marshalRoundVote vote)
  | roundVoteAck ack => HashFunction.hash (MessageCodec.marshalRoundVoteAck ack)
  | blockSign s => s.hash
  | blockVote vote => HashFunction.hash (MessageCodec.marshalBlockVote vote)
  | blockGenRequest request => HashFunction.hash (MessageCodec.marshalBlockGenRequest request)

/-- The states of a round in their order. No round is ever in the source's empty state. -/
inductive RoundState where
  | roundVoteState
  | roundVoteAckState
  | blockWaitState
  | blockVoteState
deriving DecidableEq

namespace RoundState

def rank : RoundState → Nat
  | roundVoteState => 1
  | roundVoteAckState => 2
  | blockWaitState => 3
  | blockVoteState => 4

instance : LT RoundState := ⟨fun left right => left.rank < right.rank⟩

instance (left right : RoundState) : Decidable (left < right) :=
  inferInstanceAs (Decidable (left.rank < right.rank))

end RoundState

structure BlockRound (Acc Ev Tx : Type) where
  blockVoteMap : SortedMap PublicHash BlockVote
  blockGenMessage : Option (BlockGenMessage Tx)
  context : Option (Context Acc Ev)
  blockVoteMessageWaitMap : SortedMap PublicHash BlockVoteMessage
  blockGenMessageWait : Option (BlockGenMessage Tx)
  lastBlockGenRequestTime : UInt64

def BlockRound.new : BlockRound Acc Ev Tx where
  blockVoteMap := .empty
  blockGenMessage := none
  context := none
  blockVoteMessageWaitMap := .empty
  blockGenMessageWait := none
  lastBlockGenRequestTime := 0

def BlockRound.setContext (ctx : Context Acc Ev) (br : BlockRound Acc Ev Tx) :
    BlockRound Acc Ev Tx :=
  { br with context := some ctx }

def BlockRound.keepVote (sender : PublicHash) (msg : BlockVoteMessage) (br : BlockRound Acc Ev Tx) :
    BlockRound Acc Ev Tx :=
  { br with blockVoteMessageWaitMap := br.blockVoteMessageWaitMap.put sender msg }

def BlockRound.countVote (sender : PublicHash) (vote : BlockVote) (br : BlockRound Acc Ev Tx) :
    BlockRound Acc Ev Tx :=
  { br with blockVoteMap := br.blockVoteMap.put sender vote }

structure VoteRound (Acc Ev Tx : Type) where
  roundState : RoundState
  targetHeight : UInt32
  roundVoteMessageMap : SortedMap PublicHash RoundVoteMessage
  roundVoteAckMessageMap : SortedMap PublicHash RoundVoteAckMessage
  minRoundVoteAck : Option RoundVoteAck
  blockRoundMap : SortedMap UInt32 (BlockRound Acc Ev Tx)
  roundVoteAckMessageWaitMap : SortedMap PublicHash RoundVoteAckMessage
  voteFailCount : Nat

/-- The heights from `targetHeight` on below `targetHeight + maxBlocksPerFormulator`. The
bound is computed in 32 bits, so that there are none once it wraps around. -/
def roundHeights (targetHeight maxBlocksPerFormulator : UInt32) : List UInt32 :=
  (List.range ((targetHeight + maxBlocksPerFormulator).toNat - targetHeight.toNat)).map fun i =>
    targetHeight + UInt32.ofNat i

def VoteRound.new (targetHeight maxBlocksPerFormulator : UInt32) : VoteRound Acc Ev Tx where
  roundState := .roundVoteState
  targetHeight := targetHeight
  roundVoteMessageMap := .empty
  roundVoteAckMessageMap := .empty
  minRoundVoteAck := none
  blockRoundMap :=
    (roundHeights targetHeight maxBlocksPerFormulator).foldl (fun map i => map.put i .new) .empty
  roundVoteAckMessageWaitMap := .empty
  voteFailCount := 0

end Fleta.Pof
