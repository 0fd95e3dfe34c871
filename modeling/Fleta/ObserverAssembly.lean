import Fleta.ObserverInstances

/-!
# Blocks assembled from votes

A quorum of block votes makes a block: the generator signature that the observer holds,
and the observer signatures of the votes. Each of these was checked against the generator
signature in its vote. The block is valid exactly when all of these are the same.
-/

namespace Fleta.Pof

open SortedMap

variable {Acc Ev Tx : Type}

namespace ObserverNode

section Connected

variable [HashFunction] [Codec] [MessageCodec] {su : Setup Acc Ev Tx} {amb : Ambient}
  {ob : ObserverNode Acc Ev Tx}

variable (ack : RoundVoteAck)

variable [HeaderCodec]

variable [Account Acc] [Event Ev] [Base58] [Msgpack] [AccountCodec Acc] [TxOutCodec] [EventCodec Ev]
  [FormulatorAccount Acc] {b : Block Tx} {br : BlockRound Acc Ev Tx} {gen : BlockGenMessage Tx}
  {vote : BlockVote}

variable {sender : PublicHash}

end Connected

section Generated

variable [HashFunction] [HeaderCodec]

/-- The formulator of the round has signed the block that the observer votes for. -/
def Generated (su : Setup Acc Ev Tx) (ob : ObserverNode Acc Ev Tx) : Prop :=
  ∀ br gen, ob.Voting br gen → ∃ ack, ob.round.minRoundVoteAck = some ack ∧
    su.cn.recoverPublicHash gen.block.header.hash gen.generatorSignature =
      .ok ack.formulatorPublicHash

variable {su : Setup Acc Ev Tx} {ob ob' : ObserverNode Acc Ev Tx}

theorem Generated.idle (idle : ob.round.roundState ≠ .blockVoteState) : ob.Generated su :=
  fun _ _ voting => absurd voting.state idle

theorem Generated.put {height : UInt32} {br br' : BlockRound Acc Ev Tx}
    (generated : ob.Generated su) (found : ob.round.blockRoundMap.get height = some br)
    (same : br'.blockGenMessage = br.blockGenMessage) :
    (ob.putBlockRound height br').Generated su := by
  intro other gen voting
  have read : (ob.round.blockRoundMap.put height br').get ob.round.targetHeight = some other :=
    voting.found
  rw [get_put] at read
  split at read
  · rename_i target
    cases read
    exact generated br gen ⟨voting.state, target ▸ found, same.symm.trans voting.held⟩
  · exact generated other gen ⟨voting.state, read, voting.held⟩

variable [Account Acc] [Event Ev] [Base58] [Msgpack] [AccountCodec Acc] [TxOutCodec]
  [EventCodec Ev] [FormulatorAccount Acc] [Codec] [MessageCodec] [Transaction Acc Ev Tx]
  {current : Option (Message Tx)}

theorem Generated.move (generated : ob.Generated su) (move : Move su current ob ob') :
    ob'.Generated su := by
  cases move with
  | note same =>
    intro br gen voting
    rw [same.minRoundVoteAck]
    refine generated br gen ⟨same.roundState.symm.trans voting.state, ?_, voting.held⟩
    rw [← same.blockRoundMap, ← same.targetHeight]
    exact voting.found
  | push | sign | vote | refuse | connectVoted | connectQueued | enqueue | dequeue =>
    exact fun br gen voting => generated br gen { voting with }
  | wait found same => exact generated.put found same.blockGenMessage
  | tally voting => exact generated.put voting.found rfl
  | accept ctx _ _ _ _ _ chosen signedBy =>
    intro br gen voting
    have found := voting.found.symm.trans (get_put_self _ _ _)
    cases found
    cases voting.held
    exact ⟨_, chosen, signedBy⟩
  | proceed _ after => exact .idle after
  | turn | reset => exact .idle nofun

end Generated

section Validity

variable [HashFunction] [Codec] {su : Setup Acc Ev Tx} {keys : SortedMap PublicHash Bool}

end Validity

section Assembled

theorem heard_anything [HashFunction] [Codec] [MessageCodec] {su : Setup Acc Ev Tx}
    {keys : SortedMap PublicHash Bool} {ob : ObserverNode Acc Ev Tx} (m : Message Tx) :
    Heard su keys (ob.Known fun _ _ => True) m := by
  cases m with
  | blockVote msg => exact fun _ _ _ _ => .inl trivial
  | blocks list => exact fun _ _ _ _ _ _ _ _ => .inl trivial
  | _ => exact trivial

variable [HashFunction] [HeaderCodec] [Codec] [MessageCodec]

/-- What holds of an observer after any sequence of timers and messages. -/
structure Collecting (su : Setup Acc Ev Tx) (keys : SortedMap PublicHash Bool)
    (ob : ObserverNode Acc Ev Tx) : Prop where
  filed : ob.Entries FiledEntry
  evident : Evident su keys (ob.Known fun _ _ => True) ob
  generated : ob.Generated su

variable {su : Setup Acc Ev Tx} {keys : SortedMap PublicHash Bool} {ob : ObserverNode Acc Ev Tx}

theorem Collecting.requeue (collecting : Collecting su keys ob) (items : List (MessageItem Tx)) :
    Collecting su keys { ob with messageQueue := items } where
  filed := collecting.filed
  evident := { collecting.evident with queue := fun item _ => heard_anything item.message }
  generated br gen voting := collecting.generated br gen { voting with }

variable {amb : Ambient} {sender : PublicHash} {vote : BlockVote} {br : BlockRound Acc Ev Tx}
  {gen : BlockGenMessage Tx} {b : Block Tx}

end Assembled

variable [Account Acc] [Event Ev] [Base58] [HashFunction] [Msgpack] [HeaderCodec]
  [AccountCodec Acc] [TxOutCodec] [EventCodec Ev] [FormulatorAccount Acc] [Codec] [MessageCodec]
  [Transaction Acc Ev Tx]

inductive Runs (su : Setup Acc Ev Tx) (key : PublicHash) (ledger : Ledger Tx) :
    ObserverNode Acc Ev Tx → Prop
  | new : Runs su key ledger (.new key ledger)
  | step {ob : ObserverNode Acc Ev Tx} (run : Runs su key ledger ob) (amb : Ambient)
      (input : Input Tx) : Runs su key ledger (ob.step su amb input)

variable {su : Setup Acc Ev Tx} {keys : SortedMap PublicHash Bool} {ob ob' : ObserverNode Acc Ev Tx}
  {current : Option (Message Tx)}

section

variable (signing : Signing su keys)

include signing

theorem Collecting.moves (collecting : Collecting su keys ob)
    (moves : Moves su current ob ob') : Collecting su keys ob' := by
  induction moves with
  | refl => exact collecting
  | tail _ move ih =>
    exact ⟨filedEntries_move ih.filed move,
      ih.evident.move signing (fun m _ => heard_anything m) move, ih.generated.move move⟩

theorem Collecting.step (collecting : Collecting su keys ob)
    (amb : Ambient) (input : Input Tx) : Collecting su keys (ob.step su amb input) := by
  have filed : ob.Filed := fun br gen found held => (collecting.filed _ br found).filed gen held
  cases step_cases su amb input filed with
  | moves run => exact collecting.moves signing run
  | handles _ run => exact (collecting.requeue _).moves signing run
  | @receives item _ run =>
    have pushed : Collecting su keys (ob.push item) := collecting.requeue _
    exact pushed.moves signing run

end

end ObserverNode

end Fleta.Pof

namespace Fleta.ObserverInstances

open Pof ObserverNode Instances

end Fleta.ObserverInstances
