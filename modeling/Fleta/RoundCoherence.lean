import Fleta.ObserverAssembly
import Fleta.TurnCount

/-!
# The round of an observer holds together

An observer that waits for a block knows the acknowledged vote of its round; one that votes
for a block holds the block and the context it was executed on. The height of the round is
never past the next one of the chain, and the turn of a formulator always has a block left.
Every handler and every timer keeps this, from the observer's first state on.
-/

namespace Fleta.Pof

variable {Acc Ev Tx : Type}

namespace ObserverNode

/-- `RemainBlocks`: the blocks that the chosen formulator may still make. -/
def remainBlocks (ack : RoundVoteAck) (ob : ObserverNode Acc Ev Tx) : UInt32 :=
  if ack.timeoutCount = 0 then
    ob.ledger.cs.maxBlocksPerFormulator - ob.ledger.cs.blocksBySameFormulator
  else ob.ledger.cs.maxBlocksPerFormulator

/-- What the state of a round promises about its pointers, its height and its turn. -/
structure Coherent (ob : ObserverNode Acc Ev Tx) : Prop where
  acknowledged : ob.round.roundState = .blockWaitState ∨ ob.round.roundState = .blockVoteState →
    ob.round.minRoundVoteAck.isSome = true
  held : ob.round.roundState = .blockVoteState →
    ∃ br, ob.round.blockRoundMap.get ob.round.targetHeight = some br ∧
      br.blockGenMessage.isSome = true ∧ br.context.isSome = true
  target : ob.round.targetHeight.toNat ≤ ob.ledger.store.height.toNat + 1
  turnOpen : ob.ledger.cs.TurnOpen

theorem toNat_succ_le (height : UInt32) : (height + 1).toNat ≤ height.toNat + 1 := by
  rw [UInt32.toNat_add, UInt32.toNat_one]
  exact Nat.mod_le _ _

theorem roundVote_early : RoundState.roundVoteState < .blockWaitState := by decide

theorem roundVoteAck_early : RoundState.roundVoteAckState < .blockWaitState := by decide

namespace Coherent

variable {ob ob' : ObserverNode Acc Ev Tx}

theorem early (state : ob.round.roundState < .blockWaitState)
    (target : ob.round.targetHeight.toNat ≤ ob.ledger.store.height.toNat + 1)
    (turnOpen : ob.ledger.cs.TurnOpen) : ob.Coherent where
  acknowledged := by
    intro late
    rcases late with late | late
    · rw [late] at state
      exact absurd state (by decide)
    · rw [late] at state
      exact absurd state (by decide)
  held := by
    intro late
    rw [late] at state
    exact absurd state (by decide)
  target := target
  turnOpen := turnOpen

theorem waiting (state : ob.round.roundState = .blockWaitState)
    (ack : ob.round.minRoundVoteAck.isSome = true)
    (target : ob.round.targetHeight.toNat ≤ ob.ledger.store.height.toNat + 1)
    (turnOpen : ob.ledger.cs.TurnOpen) : ob.Coherent where
  acknowledged _ := ack
  held := by
    intro voting
    rw [state] at voting
    cases voting
  target := target
  turnOpen := turnOpen

theorem new (key : PublicHash) {ledger : Ledger Tx} (turnOpen : ledger.cs.TurnOpen) :
    (ObserverNode.new key ledger : ObserverNode Acc Ev Tx).Coherent :=
  early roundVote_early (toNat_succ_le _) turnOpen

theorem reset (turnOpen : ob.ledger.cs.TurnOpen) (resetStat : Bool) :
    (ob.resetVoteRound resetStat).Coherent :=
  early roundVote_early (toNat_succ_le _) turnOpen

variable {amb : Ambient} (coherent : ob.Coherent)

include coherent

theorem congr (ledger : ob'.ledger = ob.ledger) (state : ob'.round.roundState = ob.round.roundState)
    (target : ob'.round.targetHeight = ob.round.targetHeight)
    (ack : ob'.round.minRoundVoteAck = ob.round.minRoundVoteAck)
    (entries : ob'.round.blockRoundMap = ob.round.blockRoundMap) : ob'.Coherent where
  acknowledged := by rw [state, ack]; exact coherent.acknowledged
  held := by rw [state, target, entries]; exact coherent.held
  target := by rw [target, ledger]; exact coherent.target
  turnOpen := by rw [ledger]; exact coherent.turnOpen

theorem quiet (quiet : Quiet ob ob') : ob'.Coherent := by
  have round := quiet.round
  apply coherent.congr quiet.ledger
  · rw [round]
  · rw [round]
  · rw [round]
  · rw [round]

theorem put {height : UInt32} {br br' : BlockRound Acc Ev Tx}
    (found : ob.round.blockRoundMap.get height = some br)
    (block : br.blockGenMessage.isSome = true → br'.blockGenMessage.isSome = true)
    (context : br.context.isSome = true → br'.context.isSome = true) :
    (ob.putBlockRound height br').Coherent where
  acknowledged := coherent.acknowledged
  held := by
    intro voting
    obtain ⟨other, current, hasBlock, hasContext⟩ := coherent.held voting
    by_cases same : height = ob.round.targetHeight
    · rw [← same, found] at current
      cases current
      refine ⟨br', ?_, block hasBlock, context hasContext⟩
      change (ob.round.blockRoundMap.put height br').get ob.round.targetHeight = _
      rw [← same, SortedMap.get_put_self]
    · refine ⟨other, ?_, hasBlock, hasContext⟩
      change (ob.round.blockRoundMap.put height br').get ob.round.targetHeight = _
      rw [SortedMap.get_put, if_neg same]
      exact current
  target := coherent.target
  turnOpen := coherent.turnOpen

theorem push (item : MessageItem Tx) : (ob.push item).Coherent :=
  coherent.quiet ⟨rfl, rfl, rfl, rfl⟩

theorem syncVoteRound : ob.syncVoteRound.2.Coherent := by
  unfold ObserverNode.syncVoteRound
  dsimp only
  split
  · split
    · exact coherent
    split
    · rename_i ack br chosen found
      split
      · have waits : Coherent { ob with round := { ob.round with
            targetHeight := ob.ledger.store.height + 1
            roundState := .blockWaitState } } := by
          refine waiting rfl ?_ (toNat_succ_le _) coherent.turnOpen
          rw [chosen]
          rfl
        split
        · exact (waits.push _).put found id id
        · exact waits
      · exact .reset coherent.turnOpen false
    · exact .reset coherent.turnOpen false
  · exact coherent

theorem failRound : (ob.failRound amb).Coherent := by
  have failed : Coherent { ob with round := { ob.round with
      voteFailCount := ob.round.voteFailCount + 1 } } := coherent.congr rfl rfl rfl rfl rfl
  unfold ObserverNode.failRound
  dsimp only
  split
  · apply reset
    rw [(sameCore_ignoreFormulator amb _).ledger]
    exact coherent.turnOpen
  · exact failed

end Coherent

theorem quiet_pushAll {Item : Type} (message : Item → MessageItem Tx) (list : List Item)
    (ob : ObserverNode Acc Ev Tx) :
    Quiet ob (list.foldl (fun ob item => ob.push (message item)) ob) :=
  quiet_foldl (fun ob item => ob.push (message item)) (fun _ _ => ⟨rfl, rfl, rfl, rfl⟩) list ob

section RoundVotes

variable [HashFunction] [HeaderCodec] [Codec] [MessageCodec] {su : Setup Acc Ev Tx} {amb : Ambient}
  {ob : ObserverNode Acc Ev Tx}

omit [Codec] [MessageCodec] in
theorem quiet_sendStatusTo (target : PublicHash) : Quiet ob (ob.sendStatusTo target) := by
  unfold sendStatusTo
  split <;> exact ⟨rfl, rfl, rfl, rfl⟩

omit [Codec] [MessageCodec] in
theorem quiet_answerOld (targetHeight : UInt32) (isReply : Bool) (sender : PublicHash) :
    Quiet ob (ob.answerOld targetHeight isReply sender) := by
  unfold answerOld
  split
  · exact quiet_sendStatusTo sender
  · exact ⟨rfl, rfl, rfl, rfl⟩

theorem quiet_answerBlockVote (su : Setup Acc Ev Tx) (targetHeight : UInt32) (sender : PublicHash) :
    Quiet ob (ob.answerBlockVote su targetHeight sender).2 := by
  unfold answerBlockVote
  split
  · split
    · exact ⟨rfl, rfl, rfl, rfl⟩
    · split
      · exact ⟨rfl, rfl, rfl, rfl⟩
      · exact quiet_sendBlockVoteTo sender
  · exact ⟨rfl, rfl, rfl, rfl⟩

omit [HeaderCodec] in
theorem quiet_sendRoundVoteAck : Quiet ob (ob.sendRoundVoteAck su amb) := by
  unfold sendRoundVoteAck
  split
  · exact ⟨rfl, rfl, rfl, rfl⟩
  · exact quiet_signing fun _ _ => ⟨rfl, rfl, rfl, rfl⟩

namespace Coherent

variable (coherent : ob.Coherent)

include coherent

omit [HeaderCodec] in
theorem enterRoundVoteAck : (ob.enterRoundVoteAck su amb).Coherent := by
  have entered : Coherent { ob with round := { ob.round with roundState := .roundVoteAckState } } :=
    early roundVoteAck_early coherent.target coherent.turnOpen
  have timed : ∀ time height, Coherent { ob with
      round := { ob.round with roundState := .roundVoteAckState }
      roundFirstTime := time
      roundFirstHeight := height } := fun _ _ => entered.congr rfl rfl rfl rfl rfl
  refine quiet ?_ (quiet_pushAll _ _ _)
  refine quiet ?_ quiet_sendRoundVoteAck
  split
  · exact timed _ _
  · exact entered

theorem handleRoundVote (sender : PublicHash) (msg : RoundVoteMessage) :
    (ob.handleRoundVote su amb sender msg).2.Coherent := by
  unfold ObserverNode.handleRoundVote
  dsimp only
  split
  · exact coherent
  split
  · exact coherent.quiet (quiet_answerOld _ _ sender)
  split
  · exact coherent
  split
  · unfold applyRoundVote
    split
    · exact coherent.quiet (quiet_replyRoundVote amb sender _)
    have counted : Coherent { ob with round := { ob.round with
        roundVoteMessageMap := ob.round.roundVoteMessageMap.put sender msg } } :=
      coherent.congr rfl rfl rfl rfl rfl
    dsimp only
    unfold countRoundVotes
    split
    · exact (counted.quiet (quiet_replyRoundVote amb sender _)).enterRoundVoteAck
    · exact counted.quiet (quiet_replyRoundVote amb sender _)
  split
  · have answered := coherent.quiet (quiet_answerBlockVote su msg.roundVote.targetHeight sender)
    split <;> rename_i answer <;> rw [answer] at answered
    · exact answered
    · exact answered.quiet (quiet_sendRoundVoteTo amb sender)
  · exact coherent

section

omit [HashFunction] [HeaderCodec] [Codec] [MessageCodec]

theorem takeWaiting (formulator : Address) : (ob.takeWaiting formulator).Coherent := by
  unfold ObserverNode.takeWaiting
  split
  · exact coherent
  rename_i br found
  split
  · have taken : (ob.putBlockRound ob.round.targetHeight
        { br with blockGenMessageWait := none }).Coherent := coherent.put found id id
    split
    · exact taken.quiet ⟨rfl, rfl, rfl, rfl⟩
    · exact taken
  · exact coherent

theorem enterBlockWait (ack : RoundVoteAck) : (ob.enterBlockWait ack).Coherent := by
  have chosen : (ob.chooseFormulator ack).Coherent :=
    waiting rfl rfl coherent.target coherent.turnOpen
  have requested : ((ob.chooseFormulator ack).requestBlocks ack).Coherent := by
    unfold requestBlocks
    split
    · exact chosen.quiet ⟨rfl, rfl, rfl, rfl⟩
    · exact chosen
  exact requested.takeWaiting ack.formulator

end

theorem handleRoundVoteAck (sender : PublicHash)
    (msg : RoundVoteAckMessage) : (ob.handleRoundVoteAck su amb sender msg).2.Coherent := by
  unfold ObserverNode.handleRoundVoteAck
  dsimp only
  split
  · exact coherent
  split
  · exact coherent.quiet (quiet_answerOld _ _ sender)
  split
  · exact coherent
  split
  · unfold applyRoundVoteAck
    split
    · split
      · exact coherent.quiet (quiet_sendRoundVoteAckTo amb sender)
      · exact coherent
    have counted : Coherent { ob with round := { ob.round with
        roundVoteAckMessageMap := ob.round.roundVoteAckMessageMap.put sender msg } } :=
      coherent.congr rfl rfl rfl rfl rfl
    unfold countRoundVoteAcks
    dsimp only
    split
    · split
      · exact counted.quiet (quiet_replyRoundVoteAck amb sender _)
      · exact (counted.quiet (quiet_replyRoundVoteAck amb sender _)).enterBlockWait _
    · exact counted.quiet (quiet_replyRoundVoteAck amb sender _)
  split
  · exact coherent.congr rfl rfl rfl rfl rfl
  split
  · have answered := coherent.quiet (quiet_answerBlockVote su msg.roundVoteAck.targetHeight sender)
    split <;> rename_i answer <;> rw [answer] at answered
    · exact answered
    · exact answered.quiet (quiet_sendRoundVoteAckTo amb sender)
  · exact coherent

theorem sendVotes : (ob.sendVotes su amb).2.Coherent := by
  unfold ObserverNode.sendVotes
  split
  · have sent : (ob.sendRoundVote su amb).Coherent := by
      unfold sendRoundVote
      split
      · exact coherent
      apply quiet _ (quiet_castRoundVote _)
      unfold informFormulator
      dsimp only
      split <;> exact coherent.congr rfl rfl rfl rfl rfl
    exact failRound (sent.quiet ⟨rfl, rfl, rfl, rfl⟩)
  · split
    · exact coherent.failRound
    split
    · exact coherent
    · exact coherent.quiet quiet_sendBlockVote
  · exact coherent.failRound

theorem voteTimer : (ob.voteTimer su amb).2.Coherent := by
  have synced := coherent.syncVoteRound
  unfold ObserverNode.voteTimer
  split <;> rename_i answer <;> rw [answer] at synced
  · exact synced
  · split
    · exact synced
    · exact synced.sendVotes

end Coherent

end RoundVotes

variable [HashFunction] [Codec] [MessageCodec] {su : Setup Acc Ev Tx} {amb : Ambient}
  {ob : ObserverNode Acc Ev Tx}

namespace Coherent

variable {br : BlockRound Acc Ev Tx} (coherent : ob.Coherent)

include coherent

theorem sendBlockGenRequest {height : UInt32}
    (found : ob.round.blockRoundMap.get height = some br) :
    (ob.sendBlockGenRequest su amb height br).2.Coherent := by
  have asked : (ob.putBlockRound height { br with lastBlockGenRequestTime := amb.now }).Coherent :=
    coherent.put found id id
  unfold ObserverNode.sendBlockGenRequest
  split
  · exact coherent
  dsimp only
  split
  · exact asked
  · apply asked.quiet
    dsimp only
    apply quiet_signing
    intro sig ob
    split <;> exact ⟨rfl, rfl, rfl, rfl⟩

theorem keepBlockVote {msg : BlockVoteMessage}
    (found : ob.round.blockRoundMap.get msg.blockVote.header.height = some br)
    (sender : PublicHash) : (ob.keepBlockVote su amb br sender msg).2.Coherent := by
  have forgiven : (ob.forgive msg.blockVote.header.generator).Coherent ∧
      (ob.forgive msg.blockVote.header.generator).round.blockRoundMap = ob.round.blockRoundMap := by
    unfold forgive
    split
    · exact ⟨coherent.congr rfl rfl rfl rfl rfl, rfl⟩
    · exact ⟨coherent, rfl⟩
  have kept : ((ob.forgive msg.blockVote.header.generator).putBlockRound
      msg.blockVote.header.height (br.keepVote sender msg)).Coherent := by
    apply forgiven.1.put
    · rw [forgiven.2]
      exact found
    · exact fun block => block
    · exact fun context => context
  have asked : (((ob.forgive msg.blockVote.header.generator).putBlockRound
      msg.blockVote.header.height (br.keepVote sender msg)).askBlockGen su amb
        msg.blockVote.header.height (br.keepVote sender msg)).2.Coherent := by
    unfold askBlockGen
    split
    · exact kept.sendBlockGenRequest (SortedMap.get_put_self _ _ _)
    · exact kept
  unfold ObserverNode.keepBlockVote
  dsimp only
  split <;> rename_i answer <;> rw [answer] at asked
  · exact asked
  · exact asked

theorem nextRound (voting : ob.round.roundState = .blockVoteState)
    (moved : ob.round.targetHeight = ob.ledger.store.height) (ack : RoundVoteAck) :
    (ob.nextRound su amb ack).2.Coherent := by
  unfold ObserverNode.nextRound
  dsimp only
  split
  · exact coherent
  split
  · exact .reset coherent.turnOpen false
  rename_i brNext found
  split
  · have waits : Coherent { ob with round := { ob.round with
        roundState := .blockWaitState
        voteFailCount := 0
        targetHeight := ob.round.targetHeight + 1 } } := by
      refine waiting rfl (coherent.acknowledged (.inr voting)) ?_ coherent.turnOpen
      rw [moved]
      exact toNat_succ_le _
    split
    · exact waits.quiet ⟨rfl, rfl, rfl, rfl⟩
    · exact waits.sendBlockGenRequest found
    · exact waits
  · exact .reset coherent.turnOpen false

variable [HeaderCodec]

theorem afterConnect (voting : ob.round.roundState = .blockVoteState)
    (moved : ob.round.targetHeight = ob.ledger.store.height) (ack : RoundVoteAck) (b : Block Tx)
    (vote : BlockVote) : (ob.afterConnect su amb ack b vote).2.Coherent := by
  have told : Coherent { ob.broadcastStatus with
      ignoreMap := ob.ignoreMap.delete ack.formulator } := coherent.congr rfl rfl rfl rfl rfl
  unfold ObserverNode.afterConnect
  dsimp only
  split
  · exact told
  · rename_i adjustMap nextTop _
    have announced := quiet_announceBlock ack b vote (b.signatures.drop 1) adjustMap nextTop
      { ob.broadcastStatus with ignoreMap := ob.ignoreMap.delete ack.formulator }
    apply (told.quiet announced).nextRound
    · rw [announced.round]
      exact voting
    · rw [announced.round, announced.ledger]
      exact moved

theorem acceptBlockGen {msg : BlockGenMessage Tx} (state : ob.round.roundState = .blockWaitState)
    (height : msg.block.header.height = ob.round.targetHeight) (ctx : Context Acc Ev) :
    (ob.acceptBlockGen su amb br msg ctx).Coherent := by
  refine quiet ?_ (quiet_pushAll _ _ _)
  refine quiet ?_ quiet_sendBlockVote
  constructor
  · exact fun _ => coherent.acknowledged (.inl state)
  · intro _
    refine ⟨{ br with blockGenMessage := some msg, context := some ctx }, ?_, rfl, rfl⟩
    change (ob.round.blockRoundMap.put msg.block.header.height _).get ob.round.targetHeight = _
    rw [height, SortedMap.get_put_self]
  · exact coherent.target
  · exact coherent.turnOpen

variable [Account Acc] [Event Ev] [Base58] [Msgpack] [AccountCodec Acc] [TxOutCodec]
  [EventCodec Ev] [FormulatorAccount Acc]

theorem connectVoted {gen : BlockGenMessage Tx} {vote : BlockVote} (voting : ob.Voting br gen)
    (filed : gen.block.header.height = ob.round.targetHeight)
    (height : vote.header.height = ob.round.targetHeight)
    (candidates : ob.ledger.cs.rt.candidates ≠ []) :
    (ob.connectVoted su amb br vote).2.Coherent := by
  obtain ⟨other, found, _, hasContext⟩ := coherent.held voting.state
  cases voting.found.symm.trans found
  obtain ⟨ctx, context⟩ := Option.isSome_iff_exists.mp hasContext
  obtain ⟨ack, chosen⟩ := Option.isSome_iff_exists.mp (coherent.acknowledged (.inr voting.state))
  have spent : (ob.putBlockRound vote.header.height (br.setContext
      (ob.ledger.spentContext su.cn (assemble amb br gen) ctx))).Coherent := by
    apply coherent.put
    · rw [height]
      exact voting.found
    · exact fun block => block
    · exact fun _ => rfl
  have attempted := Ledger.connectBlockWithContext_attempted su.cn (assemble amb br gen) ctx ob.ledger
  have opened := Ledger.connectBlockWithContext_open coherent.turnOpen candidates su.cn
    (assemble amb br gen) ctx
  unfold ObserverNode.connectVoted
  rw [voting.held, context, chosen]
  dsimp only
  split
  · rename_i err ledger refused
    rw [refused] at attempted opened
    have same : ledger.store.height = ob.ledger.store.height := attempted.moved
    exact ⟨spent.acknowledged, spent.held, same ▸ coherent.target, opened⟩
  · rename_i ledger joined
    rw [joined] at attempted opened
    have moved : ob.round.targetHeight = ledger.store.height :=
      filed.symm.trans (.symm attempted.moved)
    have next : ((ob.putBlockRound vote.header.height (br.setContext
        (ob.ledger.spentContext su.cn (assemble amb br gen) ctx))).join (assemble amb br gen)
          ledger).Coherent := by
      refine ⟨spent.acknowledged, spent.held, ?_, opened⟩
      change ob.round.targetHeight.toNat ≤ ledger.store.height.toNat + 1
      rw [moved]
      exact Nat.le_succ _
    exact next.afterConnect voting.state moved ack _ vote

theorem handleBlockVote (filed : ob.Filed) (sender : PublicHash)
    (msg : BlockVoteMessage) : (ob.handleBlockVote su amb sender msg).2.Coherent := by
  unfold ObserverNode.handleBlockVote
  dsimp only
  split
  · exact coherent
  split
  · exact coherent
  rename_i br found
  split
  · split
    · exact coherent.quiet (quiet_sendStatusTo sender)
    · exact coherent.put found id id
  rename_i height
  rw [Decidable.not_not] at height
  split
  · exact coherent.keepBlockVote found sender
  rename_i state
  rw [Decidable.not_not] at state
  cases passed : ob.checkBlockVote su br sender msg.blockVote with
  | error err => exact coherent
  | ok _ =>
    obtain ⟨gen, held, checked⟩ := checkBlockVote_ok passed
    obtain ⟨_, _, _, _, ranked, _⟩ := checked.generated
    have candidates := RankTable.topRank_candidates ranked
    have current : ob.round.blockRoundMap.get ob.round.targetHeight = some br := height ▸ found
    rw [held]
    dsimp only
    unfold applyBlockVote
    split
    · split
      · exact coherent.quiet (quiet_sendBlockVoteTo sender)
      · exact coherent
    have counted : (ob.putBlockRound msg.blockVote.header.height
        (br.countVote sender msg.blockVote)).Coherent :=
      coherent.put found id id
    have replied := quiet_replyBlockVote su gen sender msg.blockVote.isReply
      (ob.putBlockRound msg.blockVote.header.height (br.countVote sender msg.blockVote))
    have voting : (ob.putBlockRound msg.blockVote.header.height
        (br.countVote sender msg.blockVote)).Voting (br.countVote sender msg.blockVote) gen := by
      refine ⟨state, ?_, held⟩
      rw [height]
      exact SortedMap.get_put_self _ _ _
    dsimp only
    unfold countBlockVotes
    split
    · apply (counted.quiet replied).connectVoted (voting.quiet replied)
      · rw [replied.round]
        exact filed br gen current held
      · rw [replied.round]
        exact height
      · rw [replied.ledger]
        exact candidates
    · exact counted.quiet replied

variable [Transaction Acc Ev Tx]

theorem handleBlockGen (msg : BlockGenMessage Tx) (packet : Bool) :
    (ob.handleBlockGen su amb msg packet).2.Coherent := by
  have passedOn := (moves_forwardBlockGen su amb none ob msg packet).2
  unfold ObserverNode.handleBlockGen
  dsimp only
  split
  · exact coherent
  rename_i br found
  split
  · exact coherent
  split
  · rename_i answer
    rw [answer] at passedOn
    exact coherent.quiet passedOn
  rename_i passing answer
  rw [answer] at passedOn
  have passed := coherent.quiet passedOn
  have found' : passing.round.blockRoundMap.get msg.block.header.height = some br := by
    rw [passedOn.round]
    exact found
  have waits : (passing.putBlockRound msg.block.header.height
      { br with blockGenMessageWait := some msg }).Coherent :=
    passed.put found' id id
  split
  · split
    · exact waits
    · exact passed
  rename_i height
  split
  · split
    · exact waits
    · exact passed
  rename_i state
  rw [Decidable.not_not] at height state
  cases passing.checkBlockGen su br msg with
  | error err => exact passed
  | ok _ =>
    cases passing.executeBlockGen su amb msg with
    | error err => exact passed
    | ok ctx => exact passed.acceptBlockGen state height ctx

end Coherent

end ObserverNode

end Fleta.Pof
