import Fleta.RoundIntact

/-!
# The pointers that the handlers read through

A handler of an observer panics where the source writes a panic out, where a function it
calls panics, and where it reads through a nil pointer. The pointers of the round are set
whenever a handler reads through them, so that every panic on a message with all its
pointers is one of the first two kinds. The pointers inside a message are as the packet
left them, and are read without a check.
-/

namespace Fleta

variable {Tx : Type}

namespace Store

variable (height : UInt32) (st : Store Tx)

end Store

end Fleta

namespace Fleta.Pof

variable {Acc Ev Tx : Type}

namespace ObserverNode

section Pointers

variable [HashFunction] [HeaderCodec] [Codec] [MessageCodec] {su : Setup Acc Ev Tx}
  {amb : Ambient} {ob : ObserverNode Acc Ev Tx}

section

omit [HeaderCodec]

end

section

omit [HashFunction] [HeaderCodec] [Codec] [MessageCodec]

end

end Pointers

section Raised

variable [Account Acc] [Event Ev] [Base58] [HashFunction] [Msgpack] [HeaderCodec]
  [AccountCodec Acc] [TxOutCodec] [EventCodec Ev] [FormulatorAccount Acc] [Codec]
  [Transaction Acc Ev Tx]

variable {su : Setup Acc Ev Tx} {amb : Ambient} {ob : ObserverNode Acc Ev Tx} {ledger : Ledger Tx}

section Votes

variable [MessageCodec] {sender : PublicHash}

end Votes

variable {br : BlockRound Acc Ev Tx} {msg : BlockGenMessage Tx}

variable {sender : PublicHash} {vote : BlockVote}

variable [MessageCodec]

end Raised

/-- A message whose packet leaves a pointer out, which the decoder then leaves nil: a vote
or its header, the block of a generated block, a block after others in a list. A vote is
verified by the digest of what there is of it before it is read. -/
inductive Incomplete (Tx : Type) where
  | vote (digest : Hash256) (signature : Signature)
  | blockGen
  | blocks (before : List (Block Tx))

inductive Occurrence (Tx : Type) where
  | input (input : Input Tx)
  | incomplete (sender : PublicHash) (m : Incomplete Tx)

def Occurrence.Complete : Occurrence Tx → Prop
  | .input _ => True
  | .incomplete _ _ => False

variable [HashFunction] [HeaderCodec]

variable [Account Acc] [Event Ev] [Base58] [Msgpack] [AccountCodec Acc] [TxOutCodec]
  [EventCodec Ev] [FormulatorAccount Acc] [Codec] [MessageCodec] [Transaction Acc Ev Tx]

variable {su : Setup Acc Ev Tx} {ob : ObserverNode Acc Ev Tx}

end ObserverNode

end Fleta.Pof

namespace Fleta.ObserverInstances

open Pof ObserverNode Instances

end Fleta.ObserverInstances
