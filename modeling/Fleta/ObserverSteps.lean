import Fleta.ObserverMoves

/-!
# The steps of an observer

The handlers of the messages and the timers as sequences of moves, and from them the
step of an observer.
-/

namespace Fleta.Pof

variable {Acc Ev Tx : Type}

namespace ObserverNode

variable [Account Acc] [Event Ev] [Base58] [HashFunction] [Msgpack] [HeaderCodec]
  [AccountCodec Acc] [TxOutCodec] [EventCodec Ev] [FormulatorAccount Acc] [Codec] [MessageCodec]
  [Transaction Acc Ev Tx] {su : Setup Acc Ev Tx} {amb : Ambient} {current : Option (Message Tx)}
  {ob : ObserverNode Acc Ev Tx}

section RoundVotes

theorem moves_answerOld (targetHeight : UInt32) (isReply : Bool) (sender : PublicHash) :
    Moves su current ob (ob.answerOld targetHeight isReply sender) := by
  unfold answerOld
  split
  · exact moves_sendStatusTo sender
  · exact .refl

theorem moves_answerBlockVote (su : Setup Acc Ev Tx) (current : Option (Message Tx))
    (ob : ObserverNode Acc Ev Tx) (sender : PublicHash) :
    Moves su current ob (ob.answerBlockVote su ob.round.targetHeight sender).2 := by
  unfold answerBlockVote
  split
  · rename_i state
    split
    · exact .refl
    · rename_i br found
      split
      · exact .refl
      · rename_i gen held
        exact moves_sendBlockVoteTo ⟨state, found, held⟩ sender
  · exact .refl

theorem moves_enterRoundVoteAck (state : ob.round.roundState = .roundVoteState) :
    Moves su current ob (ob.enterRoundVoteAck su amb) := by
  refine .head (.proceed (by rw [state]; nofun) (by nofun) rfl ?_
    ⟨rfl, rfl, rfl, rfl, rfl, rfl, rfl, rfl, rfl, rfl⟩ : Move su current ob
      { ob with round := { ob.round with roundState := .roundVoteAckState } }) ?_
  · exact fun height br' found => ⟨br', found, ⟨rfl, rfl, rfl⟩, rfl⟩
  · refine .trans (b := if ob.roundFirstTime = 0 then _ else _) ?_
      (.trans moves_sendRoundVoteAck (moves_foldl _ (fun _ => True) ?_ trivial))
    · split
      · exact moves_note ⟨rfl, rfl, rfl, rfl, rfl, rfl, rfl, rfl, rfl, rfl⟩
      · exact .refl
    · intro ob entry _ _
      exact ⟨moves_push trivial, trivial⟩

variable (sender : PublicHash)

theorem moves_replyRoundVote (isReply : Bool) :
    Moves su current ob (ob.replyRoundVote su amb sender isReply) := by
  unfold replyRoundVote
  split
  · exact moves_sendRoundVoteTo sender
  · exact .refl

theorem moves_countRoundVotes (state : ob.round.roundState = .roundVoteState) :
    Moves su current ob (ob.countRoundVotes su amb).2 := by
  unfold countRoundVotes
  split
  · exact moves_enterRoundVoteAck state
  · exact .refl

theorem moves_applyRoundVote (state : ob.round.roundState = .roundVoteState) (sender : PublicHash)
    (msg : RoundVoteMessage) : Moves su current ob (ob.applyRoundVote su amb sender msg).2 := by
  unfold applyRoundVote
  split
  · exact moves_replyRoundVote sender _
  · refine .head (.note ?_) (.trans (moves_replyRoundVote sender _) (moves_countRoundVotes ?_))
    · exact ⟨rfl, rfl, rfl, rfl, rfl, rfl, rfl, rfl, rfl, rfl⟩
    · rw [(quiet_replyRoundVote amb sender _).round]
      exact state

theorem moves_handleRoundVote (msg : RoundVoteMessage) :
    Moves su current ob (ob.handleRoundVote su amb sender msg).2 := by
  unfold handleRoundVote
  dsimp only
  split
  · exact .refl
  split
  · exact moves_answerOld _ _ _
  rename_i same
  rw [Decidable.not_not] at same
  split
  · exact .refl
  split
  · rename_i state
    exact moves_applyRoundVote state sender msg
  split
  · rw [same]
    have answered := moves_answerBlockVote su current ob sender
    split <;> rename_i answer <;> rw [answer] at answered
    · exact answered
    · exact .trans answered (moves_sendRoundVoteTo sender)
  · exact .refl

end RoundVotes

section RoundVoteAcks

theorem moves_takeWaiting (formulator : Address) : Moves su current ob (ob.takeWaiting formulator) := by
  unfold takeWaiting
  split
  · exact .refl
  rename_i br found
  split
  · have taken : Move su current ob
        (ob.putBlockRound ob.round.targetHeight { br with blockGenMessageWait := none }) :=
      .wait found ⟨rfl, rfl, rfl⟩ fun _ _ waiting => .inl waiting
    split
    · exact .head taken (moves_push trivial)
    · exact .single taken
  · exact .refl

theorem moves_requestBlocks (ack : RoundVoteAck) : Moves su current ob (ob.requestBlocks ack) := by
  unfold requestBlocks
  split
  · exact moves_send _
  · exact .refl

theorem moves_enterBlockWait (state : ob.round.roundState = .roundVoteAckState)
    (ack : RoundVoteAck) : Moves su current ob (ob.enterBlockWait ack) := by
  have chosen : Move su current ob (ob.chooseFormulator ack) := by
    refine .proceed ?_ ?_ rfl ?_ ⟨rfl, rfl, rfl, rfl, rfl, rfl, rfl, rfl, rfl, rfl⟩
    · rw [state]
      nofun
    · nofun
    · exact fun height br' found => keepTurn_entry found
  exact .head chosen (.trans (moves_requestBlocks ack) (moves_takeWaiting _))

variable (sender : PublicHash)

theorem moves_replyRoundVoteAck (isReply : Bool) :
    Moves su current ob (ob.replyRoundVoteAck su amb sender isReply) := by
  unfold replyRoundVoteAck
  split
  · exact moves_sendRoundVoteAckTo sender
  · exact .refl

theorem moves_countRoundVoteAcks (state : ob.round.roundState = .roundVoteAckState) :
    Moves su current ob (ob.countRoundVoteAcks amb).2 := by
  unfold countRoundVoteAcks
  dsimp only
  split
  · split
    · exact .refl
    · exact moves_enterBlockWait state _
  · exact .refl

theorem moves_applyRoundVoteAck (state : ob.round.roundState = .roundVoteAckState)
    (sender : PublicHash) (msg : RoundVoteAckMessage) :
    Moves su current ob (ob.applyRoundVoteAck su amb sender msg).2 := by
  unfold applyRoundVoteAck
  split
  · split
    · exact moves_sendRoundVoteAckTo sender
    · exact .refl
  · refine .head (.note ?_) (.trans (moves_replyRoundVoteAck sender _)
      (moves_countRoundVoteAcks ?_))
    · exact ⟨rfl, rfl, rfl, rfl, rfl, rfl, rfl, rfl, rfl, rfl⟩
    · rw [(quiet_replyRoundVoteAck amb sender _).round]
      exact state

theorem moves_handleRoundVoteAck (msg : RoundVoteAckMessage) :
    Moves su current ob (ob.handleRoundVoteAck su amb sender msg).2 := by
  unfold handleRoundVoteAck
  dsimp only
  split
  · exact .refl
  split
  · exact moves_answerOld _ _ _
  rename_i same
  rw [Decidable.not_not] at same
  split
  · exact .refl
  split
  · rename_i state
    exact moves_applyRoundVoteAck state sender msg
  split
  · exact moves_note ⟨rfl, rfl, rfl, rfl, rfl, rfl, rfl, rfl, rfl, rfl⟩
  split
  · rw [same]
    have answered := moves_answerBlockVote su current ob sender
    split <;> rename_i answer <;> rw [answer] at answered
    · exact answered
    · exact .trans answered (moves_sendRoundVoteAckTo sender)
  · exact .refl

end RoundVoteAcks

section BlockGens

theorem moves_forwardBlockGen (su : Setup Acc Ev Tx) (amb : Ambient) (current : Option (Message Tx))
    (ob : ObserverNode Acc Ev Tx) (msg : BlockGenMessage Tx) (packet : Bool) :
    Moves su current ob (ob.forwardBlockGen amb msg packet).2 ∧
      Quiet ob (ob.forwardBlockGen amb msg packet).2 := by
  have sent : ∀ s, Moves su current ob (ob.send s) ∧ Quiet ob (ob.send s) :=
    fun s => ⟨moves_send s, rfl, rfl, rfl, rfl⟩
  have unchanged : Moves su current ob ob ∧ Quiet ob ob := ⟨.refl, rfl, rfl, rfl, rfl⟩
  unfold forwardBlockGen
  split
  · exact unchanged
  split
  · exact unchanged
  split
  · exact sent _
  split
  · dsimp only
    split
    · exact unchanged
    · split
      · exact unchanged
      · exact sent _
  · exact unchanged

theorem moves_acceptBlockGen {br : BlockRound Acc Ev Tx} {msg : BlockGenMessage Tx}
    {ack : RoundVoteAck} (ctx : Context Acc Ev) (waiting : ob.round.roundState = .blockWaitState)
    (found : ob.round.blockRoundMap.get ob.round.targetHeight = some br)
    (empty : br.blockGenMessage = none) (height : msg.block.header.height = ob.round.targetHeight)
    (valid : ob.ledger.store.validateHeader msg.block.header = .ok ())
    (chosen : ob.round.minRoundVoteAck = some ack)
    (signedBy : su.cn.recoverPublicHash msg.block.header.hash msg.generatorSignature =
      .ok ack.formulatorPublicHash) :
    Moves su current ob (ob.acceptBlockGen su amb br msg ctx) := by
  have accepted : Move su current ob _ :=
    .accept ctx waiting found empty height valid chosen signedBy
  have held : ({ ob with round := { ob.round with roundState := .blockVoteState } }.putBlockRound
      ob.round.targetHeight { br with blockGenMessage := some msg, context := some ctx }).Voting
      { br with blockGenMessage := some msg, context := some ctx } msg :=
    ⟨rfl, SortedMap.get_put_self _ _ _, rfl⟩
  unfold acceptBlockGen
  rw [height]
  refine .head accepted (.trans (moves_sendBlockVote held) (moves_foldl _ (fun other =>
    other.round.blockRoundMap.get ob.round.targetHeight =
      some { br with blockGenMessage := some msg, context := some ctx }) ?_ ?_))
  · intro other entry visited keeps
    refine ⟨moves_push (.inr ⟨_, _, entry.1, keeps, ?_⟩), keeps⟩
    exact Ambient.mem_range.mp visited
  · rw [quiet_sendBlockVote.round]
    exact held.found

theorem moves_handleBlockGen (msg : BlockGenMessage Tx) (packet : Bool) :
    Moves su current ob (ob.handleBlockGen su amb msg packet).2 := by
  unfold handleBlockGen
  dsimp only
  split
  · exact .refl
  rename_i br found
  split
  · exact .refl
  rename_i empty
  obtain ⟨moves, quiet⟩ := moves_forwardBlockGen su amb current ob msg packet
  split
  · rename_i forwarded
    rw [forwarded] at moves
    exact moves
  rename_i sent forwarded
  rw [forwarded] at moves quiet
  have still : sent.round.blockRoundMap.get msg.block.header.height = some br := by
    rw [quiet.round]
    exact found
  have waits : Move su current sent (sent.putBlockRound msg.block.header.height
      { br with blockGenMessageWait := some msg }) :=
    .wait still ⟨rfl, rfl, rfl⟩ fun _ _ waiting => .inl waiting
  refine .trans moves ?_
  split
  · split
    · exact .single waits
    · exact .refl
  rename_i height
  rw [Decidable.not_not] at height
  split
  · split
    · exact .single waits
    · exact .refl
  rename_i state
  rw [Decidable.not_not] at state
  rw [height] at still
  have unheld : br.blockGenMessage = none := by simpa using empty
  cases passed : sent.checkBlockGen su br msg with
  | error err => exact .refl
  | ok _ =>
    obtain ⟨valid, ack, chosen, signedBy⟩ := checkBlockGen_ok passed
    cases sent.executeBlockGen su amb msg with
    | error err => exact .refl
    | ok ctx =>
      exact moves_acceptBlockGen ctx state still unheld height valid chosen signedBy

end BlockGens

section BlockVotes

variable (ack : RoundVoteAck)

theorem moves_announceBlock (b : Block Tx) (vote : BlockVote)
    (sigs : List Signature) (adjustMap : List Address) (nextTop : Option Address) :
    Moves su current ob (ob.announceBlock ack b vote sigs adjustMap nextTop) := by
  unfold announceBlock
  split
  · split
    · exact moves_send _
    · exact .trans (moves_send _) (moves_send _)
  · dsimp only
    split
    · exact .refl
    · exact moves_foldl _ (fun _ => True) (fun ob r _ _ => ⟨moves_send _, trivial⟩) trivial

theorem moves_nextRound (caught : ob.round.targetHeight = ob.ledger.store.height) :
    Moves su current ob (ob.nextRound su amb ack).2 := by
  have behind : ob.round.targetHeight ≠ ob.ledger.store.height + 1 := by
    rw [caught]
    exact height_ne_succ _
  have resets : Moves su current ob (ob.resetVoteRound false) :=
    .single (.reset false fun _ same => absurd same behind)
  unfold nextRound
  dsimp only
  split
  · exact .refl
  split
  · exact resets
  rename_i brNext found
  split
  · have turned : Move su current ob { ob with round := { ob.round with
        roundState := .blockWaitState
        voteFailCount := 0
        targetHeight := ob.ledger.store.height + 1 } } := .turn 0 behind
    rw [caught] at found ⊢
    refine .head turned ?_
    split
    · exact moves_push trivial
    · exact moves_sendBlockGenRequest found
    · exact .refl
  · exact resets

theorem moves_afterConnect (b : Block Tx) (vote : BlockVote)
    (caught : ob.round.targetHeight = ob.ledger.store.height) :
    Moves su current ob (ob.afterConnect su amb ack b vote).2 := by
  have told : Move su current ob
      { ob.broadcastStatus with ignoreMap := ob.ignoreMap.delete ack.formulator } :=
    .note ⟨rfl, rfl, rfl, rfl, rfl, rfl, rfl, rfl, rfl, rfl⟩
  unfold afterConnect
  dsimp only
  split
  · exact .single told
  · refine .head told (.trans (moves_announceBlock ..) (moves_nextRound ack ?_))
    rw [(quiet_announceBlock ..).round, (quiet_announceBlock ..).ledger]
    exact caught

variable {br : BlockRound Acc Ev Tx} {gen : BlockGenMessage Tx} {sender : PublicHash}

section

variable (voting : ob.Voting br gen)

include voting

variable {vote : BlockVote}

theorem moves_connectVoted (checked : CheckedVote su gen sender vote ob)
    (height : vote.header.height = ob.round.targetHeight)
    (filed : gen.block.header.height = ob.round.targetHeight)
    (quorum : ob.ledger.cs.observerKeyMap.len / 2 + 1 ≤ br.blockVoteMap.len) :
    Moves su current ob (ob.connectVoted su amb br vote).2 := by
  cases ran : br.context with
  | none =>
    unfold connectVoted
    rw [voting.held, ran]
  | some ctx =>
    cases chosen : ob.round.minRoundVoteAck with
    | none =>
      unfold connectVoted
      rw [voting.held, ran, chosen]
    | some ack =>
      let used := br.setContext (ob.ledger.spentContext su.cn (assemble amb br gen) ctx)
      let spent := ob.putBlockRound vote.header.height used
      have spends : Move su current ob spent := by
        have entry : ob.round.blockRoundMap.get vote.header.height = some br := by
          rw [height]
          exact voting.found
        exact .wait entry ⟨rfl, rfl, by rw [ran]; rfl⟩ fun _ _ waiting => .inl waiting
      have stands : spent.Voting used gen := by
        refine ⟨voting.state, ?_, voting.held⟩
        change (ob.round.blockRoundMap.put vote.header.height _).get ob.round.targetHeight = _
        rw [height]
        exact SortedMap.get_put_self _ _ _
      have attempted :=
        Ledger.connectBlockWithContext_attempted su.cn (assemble amb br gen) ctx ob.ledger
      unfold connectVoted
      rw [voting.held, ran, chosen]
      dsimp only
      rcases connects : ob.ledger.connectBlockWithContext su.cn (assemble amb br gen) ctx with
        ⟨result, ledger⟩
      rw [connects] at attempted
      cases result with
      | error err =>
        have refuses : Move su current spent { spent with ledger := ledger } :=
          .refuse attempted.moved attempted.keys
        exact .head spends (.single refuses)
      | ok _ =>
        have joins : Move su current spent (spent.join (assemble amb br gen) ledger) :=
          .connectVoted stands rfl quorum checked.same checked.valid connects
        have caught : ob.round.targetHeight = ledger.store.height :=
          filed.symm.trans attempted.moved.symm
        exact .head spends (.head joins (moves_afterConnect ack _ vote caught))

theorem moves_replyBlockVote (sender : PublicHash) (isReply : Bool) :
    Moves su current ob (ob.replyBlockVote su gen sender isReply) := by
  unfold replyBlockVote
  split
  · exact moves_sendBlockVoteTo voting sender
  · exact .refl

theorem moves_countBlockVotes (checked : CheckedVote su gen sender vote ob)
    (height : vote.header.height = ob.round.targetHeight)
    (filed : gen.block.header.height = ob.round.targetHeight) :
    Moves su current ob (ob.countBlockVotes su amb br vote).2 := by
  unfold countBlockVotes
  split
  · rename_i quorum
    exact moves_connectVoted voting checked height filed quorum
  · exact .refl

end

variable {msg : BlockVoteMessage}

theorem moves_applyBlockVote (heard : current = some (.blockVote msg))
    (voting : ob.Voting br gen) (checked : CheckedVote su gen sender msg.blockVote ob)
    (observer : ob.ledger.cs.observerKeyMap.has sender = true)
    (height : msg.blockVote.header.height = ob.round.targetHeight)
    (filed : gen.block.header.height = ob.round.targetHeight) :
    Moves su current ob (ob.applyBlockVote su amb br gen sender msg.blockVote).2 := by
  unfold applyBlockVote
  split
  · split
    · exact moves_sendBlockVoteTo voting sender
    · exact .refl
  rw [height]
  have tallies : Move su current ob
      (ob.putBlockRound ob.round.targetHeight (br.countVote sender msg.blockVote)) :=
    .tally voting observer checked.same checked.signedBy heard
  have stands : (ob.putBlockRound ob.round.targetHeight
      (br.countVote sender msg.blockVote)).Voting (br.countVote sender msg.blockVote) gen :=
    ⟨voting.state, SortedMap.get_put_self _ _ _, voting.held⟩
  have quiet := quiet_replyBlockVote su gen sender msg.blockVote.isReply
    (ob.putBlockRound ob.round.targetHeight (br.countVote sender msg.blockVote))
  have still := checked.congr quiet.ledger (by rw [quiet.round]; rfl)
  have target := congrArg VoteRound.targetHeight quiet.round
  exact .head tallies (.trans (moves_replyBlockVote stands sender _)
    (moves_countBlockVotes (stands.quiet quiet) still (height.trans target.symm)
      (filed.trans target.symm)))

variable {height : UInt32}

theorem move_keepVote (heard : current = some (.blockVote msg)) (sender : PublicHash)
    (found : ob.round.blockRoundMap.get height = some br) :
    Move su current ob (ob.putBlockRound height (br.keepVote sender msg)) := by
  refine .wait found ⟨rfl, rfl, rfl⟩ fun other waiting kept => ?_
  by_cases same : sender = other
  · subst same
    rw [BlockRound.keepVote, SortedMap.get_put_self] at kept
    cases kept
    exact .inr heard
  · rw [BlockRound.keepVote, SortedMap.get_put_of_ne _ _ same] at kept
    exact .inl kept

theorem moves_forgive (su : Setup Acc Ev Tx) (current : Option (Message Tx))
    (ob : ObserverNode Acc Ev Tx) (addr : Address) :
    Moves su current ob (ob.forgive addr) ∧
      (ob.forgive addr).round.blockRoundMap = ob.round.blockRoundMap := by
  unfold forgive
  split
  · exact ⟨moves_note ⟨rfl, rfl, rfl, rfl, rfl, rfl, rfl, rfl, rfl, rfl⟩, rfl⟩
  · exact ⟨.refl, rfl⟩

theorem moves_askBlockGen (found : ob.round.blockRoundMap.get height = some br) :
    Moves su current ob (ob.askBlockGen su amb height br).2 := by
  unfold askBlockGen
  split
  · exact moves_sendBlockGenRequest found
  · exact .refl

theorem moves_keepBlockVote (heard : current = some (.blockVote msg)) (sender : PublicHash)
    (found : ob.round.blockRoundMap.get msg.blockVote.header.height = some br) :
    Moves su current ob (ob.keepBlockVote su amb br sender msg).2 := by
  obtain ⟨forgives, same⟩ := moves_forgive su current ob msg.blockVote.header.generator
  rw [← same] at found
  have asked : (ob.keepBlockVote su amb br sender msg).2 =
      (((ob.forgive msg.blockVote.header.generator).putBlockRound msg.blockVote.header.height
        (br.keepVote sender msg)).askBlockGen su amb msg.blockVote.header.height
          (br.keepVote sender msg)).2 := by
    unfold keepBlockVote
    dsimp only
    split <;> rename_i answer
    · rw [answer]
    · rw [answer]
  rw [asked]
  refine forgives.trans (.head (move_keepVote heard sender found) (moves_askBlockGen ?_))
  exact SortedMap.get_put_self _ _ _

theorem moves_handleBlockVote (heard : current = some (.blockVote msg))
    (filed : ∀ br gen, ob.round.blockRoundMap.get ob.round.targetHeight = some br →
      br.blockGenMessage = some gen → gen.block.header.height = ob.round.targetHeight)
    (sender : PublicHash) : Moves su current ob (ob.handleBlockVote su amb sender msg).2 := by
  unfold handleBlockVote
  dsimp only
  split
  · exact .refl
  rename_i verified
  split
  · exact .refl
  rename_i br found
  split
  · split
    · exact moves_sendStatusTo sender
    · exact .single (move_keepVote heard sender found)
  rename_i height
  rw [Decidable.not_not] at height
  split
  · exact moves_keepBlockVote heard sender found
  rename_i state
  rw [Decidable.not_not] at state
  rw [height] at found
  cases passed : ob.checkBlockVote su br sender msg.blockVote with
  | error err => exact .refl
  | ok _ =>
    obtain ⟨gen, held, checked⟩ := checkBlockVote_ok passed
    rw [held]
    exact moves_applyBlockVote heard ⟨state, found, held⟩ checked (verifySender_ok verified) height
      (filed br gen found held)

end BlockVotes

section Timers

variable (sender : PublicHash)

theorem moves_handleRequest (msg : RequestMessage) :
    Moves su current ob (ob.handleRequest sender msg).2 := by
  unfold handleRequest
  dsimp only
  split
  · exact .refl
  split
  · exact .refl
  · exact moves_send _

theorem moves_requestTen (baseHeight statusHeight : UInt32) :
    Moves su current ob (ob.requestTen amb sender baseHeight statusHeight) := by
  unfold requestTen
  dsimp only
  split
  · exact moves_sendRequestBlockTo _ _ _
  · exact moves_foldl _ (fun _ => True)
      (fun ob i _ _ => ⟨moves_sendRequestBlockTo _ _ _, trivial⟩) trivial

theorem moves_handleStatus (msg : StatusMessage) :
    Moves su current ob (ob.handleStatus amb sender msg).2 := by
  unfold handleStatus
  dsimp only
  split
  · exact moves_foldl _ (fun _ => True) (fun ob base _ _ => ⟨moves_requestTen _ _ _, trivial⟩) trivial
  split
  · exact .refl
  split <;> exact .refl

variable {list : List (Block Tx)}

theorem moves_addBlock {b : Block Tx} (heard : current = some (.blocks list)) (listed : b ∈ list) :
    Moves su current ob (ob.addBlock b).2 := by
  unfold addBlock
  split
  · split
    · exact .refl
    · split <;> exact .refl
  · split
    · exact .single (.enqueue _ heard listed)
    · split <;> exact .refl

theorem moves_handleBlocks (heard : current = some (.blocks list))
    (rest : List (Block Tx)) (listed : ∀ b ∈ rest, b ∈ list) :
    Moves su current ob (ob.handleBlocks rest).2 := by
  induction rest generalizing ob with
  | nil => exact .refl
  | cons b rest ih =>
    have added : Moves su current ob (ob.addBlock b).2 := moves_addBlock heard (listed b (by simp))
    unfold handleBlocks
    split <;> rename_i answer <;> rw [answer] at added
    · exact added
    · exact added.trans (ih fun other member => listed other (by simp [member]))

theorem moves_handleObserverMessage {item : MessageItem Tx} (heard : current = some item.message)
    (filed : ∀ br gen, ob.round.blockRoundMap.get ob.round.targetHeight = some br →
      br.blockGenMessage = some gen → gen.block.header.height = ob.round.targetHeight) :
    Moves su current ob (ob.handleObserverMessage su amb item).2 := by
  unfold handleObserverMessage
  split
  · exact moves_handleRoundVote _ _
  · exact moves_handleRoundVoteAck _ _
  · exact moves_handleBlockGen _ _
  · rename_i msg same
    rw [same] at heard
    exact moves_handleBlockVote heard filed _
  · exact moves_handleRequest _ _
  · exact moves_handleStatus _ _
  · rename_i list same
    rw [same] at heard
    exact moves_handleBlocks heard list fun _ listed => listed
  all_goals exact .refl

theorem moves_connectQueued (count targetHeight : Nat) :
    Moves su current ob (ob.connectQueued su count targetHeight).2 := by
  induction count generalizing ob targetHeight with
  | zero => exact .refl
  | succ count ih =>
    unfold connectQueued
    rcases popped : popUntil targetHeight ob.blockQ with ⟨found, rest⟩
    obtain ⟨fewer, first⟩ := popUntil_fewer popped
    cases found with
    | none => exact .single (.dequeue fewer)
    | some b =>
      dsimp only
      have attempted := Ledger.connectBlock_attempted su.cn b none ob.ledger
      rcases connects : ob.ledger.connectBlock su.cn b none with ⟨result, ledger⟩
      rw [connects] at attempted
      cases result with
      | error err =>
        exact .head (.dequeue fewer) (.single (.refuse attempted.moved attempted.keys))
      | ok _ =>
        have joins : Move su current ob (ob.join b ledger) := .connectQueued (first b rfl) connects
        have pops : Move su current (ob.join b ledger)
            ({ ob with blockQ := rest }.join b ledger) := .dequeue fewer
        exact .head joins (.head pops (ih (targetHeight + 1)))

theorem moves_blockTimer : Moves su current ob (ob.blockTimer su).2 := by
  have connects : Moves su current ob
      (ob.connectQueued su 101 (ob.ledger.store.height + 1).toNat).2 := moves_connectQueued _ _
  unfold blockTimer
  split <;> rename_i answer <;> rw [answer] at connects
  · exact connects
  · dsimp only
    split
    · exact connects.trans (moves_send _)
    · exact connects

theorem moves_syncVoteRound (su : Setup Acc Ev Tx) (current : Option (Message Tx))
    (ob : ObserverNode Acc Ev Tx) : Moves su current ob ob.syncVoteRound.2 := by
  unfold syncVoteRound
  dsimp only
  split
  · rename_i lower
    have behind : ob.round.targetHeight ≠ ob.ledger.store.height + 1 := by
      intro same
      rw [same] at lower
      exact absurd lower (UInt32.lt_irrefl _)
    have resets : Moves su current ob (ob.resetVoteRound false) :=
      .single (.reset false fun _ same => absurd same behind)
    split
    · exact .refl
    split
    · rename_i ack br _ found
      split
      · refine .head (.turn ob.round.voteFailCount behind) ?_
        split
        · refine .trans (moves_push ?_) (.single (.wait found ⟨rfl, rfl, rfl⟩ ?_))
          · exact trivial
          · exact fun _ _ waiting => .inl waiting
        · exact .refl
      · exact resets
    · exact resets
  · exact .refl

theorem moves_failRound (idle : ob.round.roundState = .blockVoteState →
      ob.round.blockRoundMap.get ob.round.targetHeight = none) :
    Moves su current ob (ob.failRound amb) := by
  let failed : ObserverNode Acc Ev Tx :=
    { ob with round := { ob.round with voteFailCount := ob.round.voteFailCount + 1 } }
  have notes : Move su current ob failed := .note ⟨rfl, rfl, rfl, rfl, rfl, rfl, rfl, rfl, rfl, rfl⟩
  unfold failRound
  dsimp only
  split
  · have ignores := sameCore_ignoreFormulator amb failed
    refine .head notes (.head (.note ignores) (.single (.reset true fun state _ => ?_)))
    rw [ignores.blockRoundMap, ignores.targetHeight]
    rw [ignores.roundState] at state
    exact idle state
  · exact .single notes

theorem moves_sendVotes : Moves su current ob (ob.sendVotes su amb).2 := by
  unfold sendVotes
  split
  · rename_i state
    refine .trans moves_sendRoundVote (.trans (moves_send _) (moves_failRound ?_))
    intro voting
    exact absurd ((roundState_sendRoundVote amb).symm.trans voting) (by rw [state]; nofun)
  · rename_i state
    split
    · rename_i missing
      exact moves_failRound fun _ => missing
    · rename_i br found
      split
      · exact .refl
      · rename_i gen held
        exact moves_sendBlockVote ⟨state, found, held⟩
  · rename_i voteless blockless
    exact moves_failRound fun voting => absurd voting blockless

theorem moves_voteTimer : Moves su current ob (ob.voteTimer su amb).2 := by
  have synced := moves_syncVoteRound su current ob
  unfold voteTimer
  split <;> rename_i answer <;> rw [answer] at synced
  · exact synced
  · split
    · exact synced
    · exact synced.trans moves_sendVotes

end Timers

def Input.message : Input Tx → Option (Message Tx)
  | .observerRecv _ m => some m
  | .formulatorRecv m => some m
  | _ => none

inductive Step (su : Setup Acc Ev Tx) (input : Input Tx) :
    ObserverNode Acc Ev Tx → ObserverNode Acc Ev Tx → Prop
  | moves {ob ob' : ObserverNode Acc Ev Tx} (run : Moves su none ob ob') : Step su input ob ob'
  | handles {ob ob' : ObserverNode Acc Ev Tx} {item : MessageItem Tx}
      {rest : List (MessageItem Tx)} (queued : ob.messageQueue = item :: rest)
      (run : Moves su (some item.message) { ob with messageQueue := rest } ob') :
      Step su input ob ob'
  | receives {ob ob' : ObserverNode Acc Ev Tx} {item : MessageItem Tx}
      (heard : input.message = some item.message) (run : Moves su none (ob.push item) ob') :
      Step su input ob ob'

theorem Step.halt {input : Input Tx} {ob' : ObserverNode Acc Ev Tx} (step : Step su input ob ob') :
    Step su input ob ob'.halt := by
  have halts : ∀ current, Moves su current ob' ob'.halt := fun _ =>
    moves_note ⟨rfl, rfl, rfl, rfl, rfl, rfl, rfl, rfl, rfl, rfl⟩
  cases step with
  | moves run => exact .moves (run.trans (halts _))
  | handles queued run => exact .handles queued (run.trans (halts _))
  | receives heard run => exact .receives heard (run.trans (halts _))

def Filed (ob : ObserverNode Acc Ev Tx) : Prop :=
  ∀ br gen, ob.round.blockRoundMap.get ob.round.targetHeight = some br →
    br.blockGenMessage = some gen → gen.block.header.height = ob.round.targetHeight

theorem step_handleInput (input : Input Tx) (filed : ob.Filed) :
    Step su input ob (ob.handleInput su amb input).2 := by
  cases input with
  | blockTimer => exact .moves moves_blockTimer
  | voteTimer => exact .moves moves_voteTimer
  | queueTimer =>
    dsimp only [handleInput]
    unfold queueTimer
    split
    · exact .moves .refl
    · rename_i item rest queued
      exact .handles queued (moves_handleObserverMessage rfl filed)
  | observerRecv sender m =>
    dsimp only [handleInput]
    unfold onObserverRecv
    split <;> exact .receives rfl .refl
  | formulatorRecv m =>
    dsimp only [handleInput]
    unfold onFormulatorRecv
    split
    · exact .receives rfl .refl
    all_goals exact .moves .refl

/-- What a step of an observer can do. -/
theorem step_cases (su : Setup Acc Ev Tx) (amb : Ambient) (input : Input Tx) (filed : ob.Filed) :
    Step su input ob (ob.step su amb input) := by
  have handled : Step su input ob (ob.handleInput su amb input).2 := step_handleInput input filed
  unfold step
  split
  · exact .moves .refl
  split <;> rename_i answer <;> rw [answer] at handled
  · exact handled.halt
  · exact handled

end ObserverNode

end Fleta.Pof
