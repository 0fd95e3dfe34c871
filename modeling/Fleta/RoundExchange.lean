import Fleta.RoundPoll

/-!
# The exchange of round votes

What a member of a poll does with the votes and the acknowledgements of the others: it
counts them, answers them, acknowledges the smallest vote when it has enough votes, and chooses
the formulator when it has enough acknowledgements. Nothing that it sends can be told apart
from what the others send but by its sender and its time.
-/

namespace Fleta.Pof

open TwofoldMajority List

variable {Acc Ev Tx : Type}

namespace ObserverNode

variable [HashFunction] [HeaderCodec] [Codec] [MessageCodec] (su : Setup Acc Ev Tx)

structure Member (poll : Poll) (key : PublicHash) (ob : ObserverNode Acc Ev Tx) : Prop where
  member : key ∈ poll.members
  own : ob.myPublicHash = key
  chainID : ob.ledger.store.chainID = poll.chainID
  height : ob.ledger.store.height = poll.height
  lastHash : ob.ledger.store.lastHash = poll.lastHash
  cs : ob.ledger.cs = poll.cs
  target : ob.round.targetHeight = poll.height + 1
  running : ob.halted = false

structure Gathered (poll : Poll) (key : PublicHash) (ob : ObserverNode Acc Ev Tx) : Prop
    extends Member poll key ob where
  queue : ∀ item ∈ ob.messageQueue, poll.From su item.publicHash item.message
  sent : ∀ s ∈ ob.sent, s.message.Exchanged → poll.From su key s.message
  votes : ∀ key msg, ob.round.roundVoteMessageMap.get key = some msg → poll.VoteFrom su key msg
  acks : ∀ key msg, ob.round.roundVoteAckMessageMap.get key = some msg → poll.AckFrom su key msg
  waiting : ∀ key msg, ob.round.roundVoteAckMessageWaitMap.get key = some msg →
    poll.AckFrom su key msg
  idle : ∀ height br, ob.round.blockRoundMap.get height = some br → br.blockGenMessageWait = none

/-- How far the round has come. No round goes beyond the choice of a formulator here. -/
def Phase (poll : Poll) (round : VoteRound Acc Ev Tx) : Prop :=
  match round.roundState with
  | .roundVoteState =>
    round.roundVoteMessageMap.len < poll.voteQuorum ∧ round.roundVoteAckMessageMap.len = 0
  | .roundVoteAckState =>
    poll.voteQuorum ≤ poll.members.length ∧ round.roundVoteAckMessageMap.len < poll.ackQuorum
  | .blockWaitState =>
    poll.voteQuorum ≤ poll.members.length ∧
      ∃ ack, round.minRoundVoteAck = some ack ∧ ack.formulator = poll.top.address
  | .blockVoteState => False

structure Joined (poll : Poll) (key : PublicHash) (ob : ObserverNode Acc Ev Tx) : Prop
    extends Gathered su poll key ob where
  phase : Phase poll ob.round
  acked : ob.round.roundState ≠ .roundVoteState →
    ∃ msg, .broadcast (.roundVoteAck msg) ∈ ob.sent

def Reply (poll : Poll) (key : PublicHash) (s : Sent Tx) : Prop :=
  (s.message.Exchanged → poll.From su key s.message) ∧ ∀ m, s = .broadcast m → ¬m.Exchanged

structure Answers (poll : Poll) (key : PublicHash) (ob ob' : ObserverNode Acc Ev Tx) : Prop where
  own : ob'.myPublicHash = ob.myPublicHash
  ledger : ob'.ledger = ob.ledger
  round : ob'.round = ob.round
  queue : ob'.messageQueue = ob.messageQueue
  running : ob'.halted = ob.halted
  sent : ∃ replies, ob'.sent = ob.sent ++ replies ∧ ∀ s ∈ replies, Reply su poll key s

variable {su} {poll : Poll} {key : PublicHash} {ob ob' ob'' : ObserverNode Acc Ev Tx}

section

omit [HeaderCodec]

theorem Reply.toObserver {target : PublicHash} {m : Message Tx} (told : poll.From su key m) :
    Reply su poll key (.toObserver target m) := by
  refine ⟨fun _ => told, ?_⟩
  intro other same
  cases same

theorem Answers.refl : Answers su poll key ob ob :=
  ⟨rfl, rfl, rfl, rfl, rfl, [], (append_nil _).symm, fun _ listed => absurd listed not_mem_nil⟩

theorem Answers.one {s : Sent Tx} {signed : List Signable} (reply : Reply su poll key s) :
    Answers su poll key ob ({ ob with signed := signed }.send s) := by
  refine ⟨rfl, rfl, rfl, rfl, rfl, [s], rfl, ?_⟩
  intro other listed
  rw [mem_singleton.mp listed]
  exact reply

theorem Answers.notExchanged {s : Sent Tx} (other : ¬s.message.Exchanged) :
    Answers su poll key ob (ob.send s) := by
  refine .one ⟨fun exchanged => absurd exchanged other, ?_⟩
  intro m same
  subst same
  exact other

end

theorem Answers.member (answers : Answers su poll key ob ob') (member : Member poll key ob) :
    Member poll key ob' where
  member := member.member
  own := answers.own.trans member.own
  chainID := answers.ledger ▸ member.chainID
  height := answers.ledger ▸ member.height
  lastHash := answers.ledger ▸ member.lastHash
  cs := answers.ledger ▸ member.cs
  target := answers.round ▸ member.target
  running := answers.running.trans member.running

section

variable (answers : Answers su poll key ob ob')

include answers

omit [HeaderCodec] in
theorem Answers.advances : Advances key ob ob' := by
  obtain ⟨replies, sent, good⟩ := answers.sent
  -- a vote or an acknowledgement for all is not among the answers
  have before : ∀ m : Message Tx, m.Exchanged → .broadcast m ∈ ob'.sent → .broadcast m ∈ ob.sent := by
    intro m exchanged listed
    rw [sent, mem_append] at listed
    rcases listed with old | new
    · exact old
    · exact absurd exchanged ((good _ new).2 m rfl)
  constructor
  · intro other has
    unfold HasVote
    rw [answers.queue, answers.round]
    exact has
  · intro other has
    unfold HasAck
    rw [answers.queue, answers.round]
    exact has
  · intro s listed
    rw [sent]
    exact mem_append_left _ listed
  · intro msg listed
    exact .inl (before _ trivial listed)
  · intro msg listed
    exact .inl (before _ trivial listed)

theorem Answers.gathered (gathered : Gathered su poll key ob) : Gathered su poll key ob' := by
  obtain ⟨replies, sent, good⟩ := answers.sent
  refine ⟨answers.member gathered.toMember, answers.queue ▸ gathered.queue, ?_,
    answers.round ▸ gathered.votes, answers.round ▸ gathered.acks,
    answers.round ▸ gathered.waiting, answers.round ▸ gathered.idle⟩
  intro s listed exchanged
  rw [sent, mem_append] at listed
  rcases listed with old | new
  · exact gathered.sent s old exchanged
  · exact (good s new).1 exchanged

theorem Answers.joined (joined : Joined su poll key ob) : Joined su poll key ob' := by
  refine ⟨answers.gathered joined.toGathered, ?_, ?_⟩
  · rw [answers.round]
    exact joined.phase
  · rw [answers.round]
    intro left
    obtain ⟨msg, listed⟩ := joined.acked left
    exact ⟨msg, answers.advances.sent _ listed⟩

end

variable {amb : Ambient} {sig : Signature} {sender : PublicHash} {msg : RoundVoteAckMessage}

section

variable (member : Member poll key ob)

include member

omit [Codec] [MessageCodec] in
theorem topRankInMap_member (reaches : ob.Reaches poll amb) :
    ob.ledger.cs.rt.topRankInMap (ob.adjustFormulatorMap amb) = .ok (poll.top, poll.timeoutCount) := by
  rw [member.cs]
  exact poll.topRankInMap_eq reaches

theorem voteFrom_current (amb : Ambient) {isReply : Bool}
    (signer : su.cn.recoverPublicHash
      (Signable.digest (.roundVote (ob.currentVote amb poll.top poll.timeoutCount isReply))) sig =
        .ok key) :
    poll.VoteFrom su key ⟨ob.currentVote amb poll.top poll.timeoutCount isReply, sig⟩ where
  member := member.member
  vote := ⟨member.chainID, member.lastHash, by rw [← member.height]; rfl, rfl, rfl, rfl⟩
  signer := signer

theorem verifySender_member {s : Signable} (sends : sender ∈ poll.members)
    (signer : su.cn.recoverPublicHash s.digest sig = .ok sender) :
    ob.verifySender su s sig sender = .ok () := by
  unfold verifySender
  rw [signer]
  dsimp only
  rw [if_neg (not_not.mpr rfl), member.cs, poll.observers sender sends]
  rfl

omit [Codec] [MessageCodec] in
theorem checkVote_member {chainID : UInt8} {lastHash : Hash256}
    {targetHeight timeoutCount : UInt32} {formulator : Address} {formulatorPublicHash : PublicHash}
    (fits : poll.Fits chainID lastHash targetHeight timeoutCount formulator formulatorPublicHash) :
    ob.checkVote chainID lastHash timeoutCount formulator formulatorPublicHash = .ok () := by
  unfold checkVote
  rw [fits.chainID, fits.lastHash, fits.timeoutCount, fits.formulator, fits.formulatorPublicHash,
    member.chainID, member.lastHash, member.cs, poll.topRank_timeoutCount]
  simp

end

section

omit [HashFunction] [HeaderCodec] [Codec] [MessageCodec]

theorem ok_fine : (.ok () : Except Err Unit) ≠ .error .panicked := by
  intro same
  cases same

theorem error_fine {err : Err} (other : err ≠ .panicked) :
    (.error err : Except Err Unit) ≠ .error .panicked :=
  fun same => other (Except.error.inj same)

end

/-- The observer goes on in the poll, and nothing is lost. -/
structure Proceeds (su : Setup Acc Ev Tx) (poll : Poll) (key : PublicHash)
    (ob : ObserverNode Acc Ev Tx) (handled : Handled Acc Ev Tx) : Prop where
  result : handled.1 ≠ .error .panicked
  joined : Joined su poll key handled.2
  advances : Advances key ob handled.2

theorem Answers.proceeds {result : Except Err Unit} (answers : Answers su poll key ob ob')
    (joined : Joined su poll key ob) (fine : result ≠ .error .panicked) :
    Proceeds su poll key ob (result, ob') :=
  ⟨fine, answers.joined joined, answers.advances⟩

section

variable (gathered : Gathered su poll key ob)

include gathered

theorem withVote_gathered {msg : RoundVoteMessage} (vote : poll.VoteFrom su sender msg) :
    Gathered su poll key (ob.withVote sender msg) := by
  refine { gathered with votes := ?_ }
  exact SortedMap.forall_get_put gathered.votes vote

theorem withAck_gathered (ack : poll.AckFrom su sender msg) :
    Gathered su poll key (ob.withAck sender msg) := by
  refine { gathered with acks := ?_ }
  exact SortedMap.forall_get_put gathered.acks ack

theorem chooseMin_same (amb : Ambient)
    (enough : poll.ackQuorum ≤ ob.round.roundVoteAckMessageMap.len) :
    ∃ ack, chooseMin poll.ackQuorum []
        ((amb.range ob.round.roundVoteAckMessageMap).map fun entry => entry.2.roundVoteAck) = some ack ∧
      ack.formulator = poll.top.address := by
  have same : ∀ ack ∈ (amb.range ob.round.roundVoteAckMessageMap).map (fun entry => entry.2.roundVoteAck),
      ack.timeoutCount = UInt32.ofNat poll.timeoutCount ∧ ack.publicHash = poll.leader ∧
        ack.formulator = poll.top.address := by
    intro ack listed
    obtain ⟨entry, visited, rfl⟩ := mem_map.mp listed
    have known := gathered.acks _ _ (Ambient.mem_range.mp visited)
    exact ⟨known.ack.timeoutCount, known.publicHash, known.ack.formulator⟩
  have length := amb.length_range ob.round.roundVoteAckMessageMap
  rw [← length_map (f := fun entry : PublicHash × RoundVoteAckMessage => entry.2.roundVoteAck)]
    at length
  generalize (amb.range ob.round.roundVoteAckMessageMap).map (fun entry => entry.2.roundVoteAck) = acks
    at same length ⊢
  have found : (choose RoundVoteAck.timeoutCount RoundVoteAck.publicHash poll.ackQuorum [] acks).isSome := by
    apply choose_isSome_of_both (a := UInt32.ofNat poll.timeoutCount) (b := poll.leader)
    · rw [append_nil, bothCount, countP_eq_length.mpr, length]
      · exact enough
      · intro ack listed
        rw [(same ack listed).1, (same ack listed).2.1]
        simp
    · exact Nat.succ_pos _
  obtain ⟨ack, chosen⟩ := Option.isSome_iff_exists.mp found
  rw [chooseMin_eq]
  exact ⟨ack, chosen, (same ack (choose_some chosen).1).2.2⟩

theorem enterBlockWait_answers (ack : RoundVoteAck) :
    Answers su poll key (ob.chooseFormulator ack) (ob.enterBlockWait ack) := by
  have requested : Answers su poll key (ob.chooseFormulator ack)
      ((ob.chooseFormulator ack).requestBlocks ack) := by
    unfold requestBlocks
    split
    · refine .one ⟨fun exchanged => exchanged.elim, ?_⟩
      intro m same
      cases same
    · exact .refl
  unfold enterBlockWait takeWaiting
  split
  · exact requested
  · rename_i br found
    have none : br.blockGenMessageWait = none := by
      rw [requested.round] at found
      exact keepTurn_idle gathered.idle found
    rw [none]
    exact requested

theorem enterBlockWait_proceeds {ack : RoundVoteAck}
    (acked : ∃ msg, .broadcast (.roundVoteAck msg) ∈ ob.sent)
    (enough : poll.voteQuorum ≤ poll.members.length)
    (formulator : ack.formulator = poll.top.address) :
    Proceeds su poll key ob (.ok (), ob.enterBlockWait ack) := by
  have chosen : Joined su poll key (ob.chooseFormulator ack) := by
    refine { gathered with
      idle := ?_, phase := ⟨enough, ack, rfl, formulator⟩, acked := fun _ => acked }
    intro height br found
    exact keepTurn_idle gathered.idle found
  have answers := enterBlockWait_answers gathered ack
  have advances : Advances key ob (ob.chooseFormulator ack) := by
    refine .of_silent ?_ ?_ rfl
    · intro other _
      exact .inr (.inr (fun same => RoundState.noConfusion same))
    · intro other _
      exact .inr (.inr (.inl rfl))
  exact ⟨ok_fine, answers.joined chosen, advances.trans answers.advances⟩

theorem countRoundVoteAcks_proceeds (acking : ob.round.roundState = .roundVoteAckState)
    (acked : ∃ msg, .broadcast (.roundVoteAck msg) ∈ ob.sent)
    (enough : poll.voteQuorum ≤ poll.members.length) (amb : Ambient) :
    Proceeds su poll key ob (ob.countRoundVoteAcks amb) := by
  unfold countRoundVoteAcks
  dsimp only
  rw [gathered.cs]
  split
  · rename_i reached
    obtain ⟨ack, chosen, formulator⟩ := chooseMin_same gathered amb reached
    unfold Poll.ackQuorum at chosen
    rw [chosen]
    exact enterBlockWait_proceeds gathered acked enough formulator
  · rename_i missing
    refine ⟨ok_fine, ⟨gathered, ?_, fun _ => acked⟩,
      .of_silent (fun _ has => has) (fun _ has => has) rfl⟩
    unfold Phase
    rw [acking]
    exact ⟨enough, Nat.not_le.mp missing⟩

end

section

variable (joined : Joined su poll key ob)

include joined

theorem Joined.not_blockVote : ob.round.roundState ≠ .blockVoteState := by
  intro state
  have phase := joined.phase
  unfold Phase at phase
  rw [state] at phase
  exact phase

theorem answerBlockVote_eq (targetHeight : UInt32)
    (sender : PublicHash) : ob.answerBlockVote su targetHeight sender = (.ok (), ob) := by
  unfold answerBlockVote
  rw [if_neg joined.not_blockVote]

theorem withWaiting_proceeds
    (voting : ob.round.roundState = .roundVoteState) (ack : poll.AckFrom su sender msg) :
    Proceeds su poll key ob (.error .invalidRoundState, ob.withWaiting sender msg) := by
  refine ⟨error_fine (by decide), { joined with waiting := ?_ },
    (withWaiting_advances key ob sender msg voting).1⟩
  exact SortedMap.forall_get_put joined.waiting ack

end

variable (signs : poll.Signs su)

include signs

theorem signing_eq (member : Member poll key ob) (s : Signable)
    (next : Signature → ObserverNode Acc Ev Tx → ObserverNode Acc Ev Tx) :
    ∃ sig, su.cn.recoverPublicHash s.digest sig = .ok key ∧
      ob.signing su s next = next sig { ob with signed := s :: ob.signed } := by
  obtain ⟨sig, signed, recovered⟩ := signs key member.member s.digest
  refine ⟨sig, recovered, ?_⟩
  unfold signing
  rw [member.own, signed]

theorem sendRoundVoteAck_eq (ob : ObserverNode Acc Ev Tx) (member : Member poll key ob)
    (votes : ∀ other msg, ob.round.roundVoteMessageMap.get other = some msg →
      poll.VoteFrom su other msg)
    (all : ∀ other, (ob.round.roundVoteMessageMap.get other).isSome = true ↔ other ∈ poll.members)
    (amb : Ambient) :
    ∃ msg signed, poll.AckFrom su key msg ∧ ob.sendRoundVoteAck su amb = { ob with
      messageQueue := ob.messageQueue ++ [⟨key, .roundVoteAck msg, false⟩]
      sent := ob.sent ++ [.broadcast (.roundVoteAck msg)]
      signed := signed } := by
  have smallest := minRoundVote_same fun other msg found => (votes other msg found).vote.timeoutCount
  unfold sendRoundVoteAck
  rw [smallest]
  cases head : ob.round.roundVoteMessageMap.eachAll.head? with
  | none =>
    rw [head?_eq_none_iff] at head
    have own := (all key).mpr member.member
    rw [SortedMap.has_iff_key_visited, head] at own
    cases own
  | some entry =>
    have found := (SortedMap.mem_eachAll _ _ _).mp (mem_of_mem_head? head)
    have vote := votes _ _ found
    obtain ⟨sig, signer, signed⟩ := signing_eq signs member
      (.roundVoteAck (ackOf amb.now entry.1 entry.2.roundVote)) fun sig ob =>
        (ob.push ⟨ob.myPublicHash, .roundVoteAck ⟨ackOf amb.now entry.1 entry.2.roundVote, sig⟩, false⟩).send
          (.broadcast (.roundVoteAck ⟨ackOf amb.now entry.1 entry.2.roundVote, sig⟩))
    refine ⟨⟨ackOf amb.now entry.1 entry.2.roundVote, sig⟩,
      .roundVoteAck (ackOf amb.now entry.1 entry.2.roundVote) :: ob.signed,
      ⟨member.member, vote.vote, poll.leader_eq all head, signer⟩, ?_⟩
    refine signed.trans ?_
    rw [← member.own]
    rfl

theorem answers_sendRoundVoteTo (member : Member poll key ob)
    (reaches : ob.Reaches poll amb) (state : ob.round.roundState ≠ .blockVoteState)
    (target : PublicHash) : Answers su poll key ob (ob.sendRoundVoteTo su amb target) := by
  unfold sendRoundVoteTo
  split
  · exact .refl
  · rw [topRankInMap_member member reaches]
    dsimp only
    obtain ⟨sig, signer, signed⟩ := signing_eq signs member
      (.roundVote (ob.currentVote amb poll.top poll.timeoutCount true))
      fun sig ob' => ob'.send (.toObserver target
        (.roundVote ⟨ob.currentVote amb poll.top poll.timeoutCount true, sig⟩))
    rw [signed]
    exact .one (.toObserver (voteFrom_current member amb signer))

theorem answers_replyRoundVote (member : Member poll key ob)
    (reaches : ob.Reaches poll amb) (state : ob.round.roundState ≠ .blockVoteState)
    (sender : PublicHash) (isReply : Bool) :
    Answers su poll key ob (ob.replyRoundVote su amb sender isReply) := by
  unfold replyRoundVote
  split
  · exact answers_sendRoundVoteTo signs member reaches state sender
  · exact .refl

theorem answers_sendRoundVoteAckTo (gathered : Gathered su poll key ob)
    (amb : Ambient) (state : ob.round.roundState ≠ .blockVoteState) (target : PublicHash) :
    Answers su poll key ob (ob.sendRoundVoteAckTo su amb target) := by
  unfold sendRoundVoteAckTo
  split
  · exact .refl
  · split
    · exact .refl
    · rename_i myMsg found
      have own := gathered.acks _ _ found
      rw [if_neg fun both => state both.1]
      obtain ⟨sig, signer, signed⟩ := signing_eq signs gathered.toMember
        (.roundVoteAck { myMsg.roundVoteAck with isReply := true })
        fun sig ob' => ob'.send (.toObserver target
          (.roundVoteAck ⟨{ myMsg.roundVoteAck with isReply := true }, sig⟩))
      rw [signed]
      exact .one (.toObserver (m := .roundVoteAck _) ⟨gathered.member, own.ack, own.publicHash, signer⟩)

theorem answers_replyRoundVoteAck (gathered : Gathered su poll key ob)
    (amb : Ambient) (state : ob.round.roundState ≠ .blockVoteState) (sender : PublicHash)
    (isReply : Bool) : Answers su poll key ob (ob.replyRoundVoteAck su amb sender isReply) := by
  unfold replyRoundVoteAck
  split
  · exact answers_sendRoundVoteAckTo signs gathered amb state sender
  · exact .refl

section

variable (gathered : Gathered su poll key ob)

include gathered

theorem enterRoundVoteAck_eq
    (all : ∀ other, (ob.round.roundVoteMessageMap.get other).isSome = true ↔ other ∈ poll.members)
    (amb : Ambient) :
    ∃ msg signed time height, poll.AckFrom su key msg ∧ ob.enterRoundVoteAck su amb = { ob with
      round := { ob.round with roundState := .roundVoteAckState }
      messageQueue := ob.messageQueue ++ ⟨key, .roundVoteAck msg, false⟩ ::
        (amb.range ob.round.roundVoteAckMessageWaitMap).map
          fun entry => ⟨entry.1, .roundVoteAck entry.2, false⟩
      sent := ob.sent ++ [.broadcast (.roundVoteAck msg)]
      signed := signed
      roundFirstTime := time
      roundFirstHeight := height } := by
  unfold enterRoundVoteAck
  dsimp only
  split
  · obtain ⟨msg, signed, ack, sends⟩ := sendRoundVoteAck_eq signs { ob with
        round := { ob.round with roundState := .roundVoteAckState }
        roundFirstTime := amb.now
        roundFirstHeight := ob.ledger.store.height }
      { gathered.toMember with } gathered.votes all amb
    rw [sends, foldl_push]
    refine ⟨msg, signed, amb.now, ob.ledger.store.height, ack, ?_⟩
    rw [append_assoc, singleton_append]
  · obtain ⟨msg, signed, ack, sends⟩ := sendRoundVoteAck_eq signs { ob with
        round := { ob.round with roundState := .roundVoteAckState } }
      { gathered.toMember with } gathered.votes all amb
    rw [sends, foldl_push]
    refine ⟨msg, signed, ob.roundFirstTime, ob.roundFirstHeight, ack, ?_⟩
    rw [append_assoc, singleton_append]

theorem enterRoundVoteAck_joined (voting : ob.round.roundState = .roundVoteState)
    (unacked : ob.round.roundVoteAckMessageMap.len = 0)
    (few : poll.members.length ≤ poll.voteQuorum)
    (enough : poll.voteQuorum ≤ ob.round.roundVoteMessageMap.len) (amb : Ambient) :
    Joined su poll key (ob.enterRoundVoteAck su amb) ∧
      Advances key ob (ob.enterRoundVoteAck su amb) := by
  have members : ∀ other, (ob.round.roundVoteMessageMap.get other).isSome = true →
      other ∈ poll.members := by
    intro other counted
    obtain ⟨msg, found⟩ := Option.isSome_iff_exists.mp counted
    exact (gathered.votes other msg found).member
  have all : ∀ other, (ob.round.roundVoteMessageMap.get other).isSome = true ↔
      other ∈ poll.members := fun other =>
    ⟨members other, poll.mem_of_full members (Nat.le_trans few enough)⟩
  obtain ⟨msg, signed, time, height, ack, entered⟩ := enterRoundVoteAck_eq signs gathered all amb
  rw [entered]
  refine ⟨{ gathered with queue := ?_, sent := ?_, phase := ?_, acked := ?_ },
    ?_, ?_, fun s listed => mem_append_left _ listed, ?_, ?_⟩
  · intro item listed
    rcases mem_append.mp listed with old | new
    · exact gathered.queue item old
    · rcases mem_cons.mp new with rfl | waiting
      · exact ack
      · obtain ⟨entry, visited, rfl⟩ := mem_map.mp waiting
        exact gathered.waiting _ _ (Ambient.mem_range.mp visited)
  · exact forall_mem_concat gathered.sent fun _ => ack
  · have bound := poll.len_le members
    change poll.voteQuorum ≤ poll.members.length ∧ ob.round.roundVoteAckMessageMap.len < poll.ackQuorum
    rw [unacked]
    exact ⟨Nat.le_trans enough bound, Nat.succ_pos _⟩
  · intro _
    exact ⟨msg, mem_append_right _ (mem_singleton.mpr rfl)⟩
  · intro other _
    refine .inr (.inr ?_)
    dsimp only
    decide
  · intro other has
    rcases has with ⟨item, queued, sender, kind⟩ | counted | passed | ⟨_, early⟩
    · exact .inl ⟨item, mem_append_left _ queued, sender, kind⟩
    · exact .inr (.inl counted)
    · rw [voting] at passed
      cases passed
    · obtain ⟨held, found⟩ := Option.isSome_iff_exists.mp early
      refine .inl ⟨⟨other, .roundVoteAck held, false⟩, ?_, rfl, held, rfl⟩
      refine mem_append_right _ (mem_cons_of_mem _ ?_)
      exact mem_map.mpr ⟨(other, held), Ambient.mem_range.mpr found, rfl⟩
  · intro vote listed
    rcases mem_append.mp listed with old | new
    · exact .inl old
    · cases mem_singleton.mp new
  · intro _ _
    exact .inr (.inl ⟨⟨key, .roundVoteAck msg, false⟩, mem_append_right _ mem_cons_self,
      rfl, msg, rfl⟩)

theorem countRoundVotes_proceeds (voting : ob.round.roundState = .roundVoteState)
    (unacked : ob.round.roundVoteAckMessageMap.len = 0)
    (few : poll.members.length ≤ poll.voteQuorum) (amb : Ambient) :
    Proceeds su poll key ob (ob.countRoundVotes su amb) := by
  unfold countRoundVotes
  rw [gathered.cs]
  split
  · rename_i enough
    have entered := enterRoundVoteAck_joined signs gathered voting unacked few enough amb
    exact ⟨ok_fine, entered.1, entered.2⟩
  · rename_i missing
    refine ⟨ok_fine, ⟨gathered, ?_, ?_⟩, .of_silent (fun _ has => has) (fun _ has => has) rfl⟩
    · unfold Phase
      rw [voting]
      exact ⟨Nat.not_le.mp missing, unacked⟩
    · intro left
      exact absurd voting left

end

variable (joined : Joined su poll key ob)

include joined

theorem applyRoundVoteAck_proceeds
    (acking : ob.round.roundState = .roundVoteAckState) (amb : Ambient) (ack : poll.AckFrom su sender msg) :
    Proceeds su poll key ob (ob.applyRoundVoteAck su amb sender msg) ∧
      (ob.applyRoundVoteAck su amb sender msg).2.HasAck sender := by
  have acked := joined.acked (by rw [acking]; decide)
  have enough : poll.voteQuorum ≤ poll.members.length := by
    have phase := joined.phase
    unfold Phase at phase
    rw [acking] at phase
    exact phase.1
  unfold applyRoundVoteAck
  split
  · rename_i old
    have answers : Answers su poll key ob
        (if (!msg.roundVoteAck.isReply) = true then ob.sendRoundVoteAckTo su amb sender else ob) := by
      split
      · exact answers_sendRoundVoteAckTo signs joined.toGathered amb joined.not_blockVote sender
      · exact .refl
    refine ⟨answers.proceeds joined (error_fine (by decide)), answers.advances.acks sender ?_⟩
    rw [Option.any_eq_true] at old
    obtain ⟨held, found, _⟩ := old
    exact .inr (.inl (Option.isSome_iff_exists.mpr ⟨held, found⟩))
  · have counted := withAck_advances key ob sender msg
    have gathered := withAck_gathered joined.toGathered ack
    have answers := answers_replyRoundVoteAck signs gathered amb joined.not_blockVote sender
      msg.roundVoteAck.isReply
    obtain ⟨own, listed⟩ := acked
    have proceeds := countRoundVoteAcks_proceeds (answers.gathered gathered)
      (by rw [answers.round]; exact acking) ⟨own, answers.advances.sent _ listed⟩ enough amb
    have advances := answers.advances.trans proceeds.advances
    exact ⟨⟨proceeds.result, proceeds.joined, counted.1.trans advances⟩,
      advances.acks sender (.inr (.inl counted.2))⟩

theorem handleRoundVoteAck_proceeds (amb : Ambient) (ack : poll.AckFrom su sender msg) :
    Proceeds su poll key ob (ob.handleRoundVoteAck su amb sender msg) ∧
      (ob.handleRoundVoteAck su amb sender msg).2.HasAck sender := by
  unfold handleRoundVoteAck
  dsimp only
  rw [verifySender_member joined.toMember ack.member ack.signer]
  rw [if_neg (not_not.mpr (ack.ack.targetHeight.trans joined.target.symm)),
    checkVote_member joined.toMember ack.ack]
  dsimp only
  by_cases acking : ob.round.roundState = .roundVoteAckState
  · rw [if_pos acking]
    exact applyRoundVoteAck_proceeds signs joined acking amb ack
  rw [if_neg acking]
  by_cases voting : ob.round.roundState = .roundVoteState
  · rw [if_pos (by rw [voting]; decide)]
    exact ⟨withWaiting_proceeds joined voting ack, (withWaiting_advances key ob sender msg voting).2⟩
  have waits : ob.round.roundState = .blockWaitState := by
    cases state : ob.round.roundState with
    | roundVoteState => exact absurd state voting
    | roundVoteAckState => exact absurd state acking
    | blockWaitState => rfl
    | blockVoteState => exact absurd state joined.not_blockVote
  rw [if_neg (by rw [waits]; decide)]
  split
  · rw [answerBlockVote_eq joined]
    have answers := answers_sendRoundVoteAckTo signs joined.toGathered amb joined.not_blockVote sender
    exact ⟨answers.proceeds joined (error_fine (by decide)),
      answers.advances.acks sender (.inr (.inr (.inl waits)))⟩
  · exact ⟨Answers.refl.proceeds joined (error_fine (by decide)), .inr (.inr (.inl waits))⟩

variable (few : poll.members.length ≤ poll.voteQuorum) (reaches : ob.Reaches poll amb)

include few reaches

theorem applyRoundVote_proceeds
    (voting : ob.round.roundState = .roundVoteState) {msg : RoundVoteMessage}
    (vote : poll.VoteFrom su sender msg) :
    Proceeds su poll key ob (ob.applyRoundVote su amb sender msg) ∧
      (ob.applyRoundVote su amb sender msg).2.HasVote sender := by
  have unacked : ob.round.roundVoteAckMessageMap.len = 0 := by
    have phase := joined.phase
    unfold Phase at phase
    rw [voting] at phase
    exact phase.2
  unfold applyRoundVote
  split
  · rename_i old
    have answers := answers_replyRoundVote signs joined.toMember reaches joined.not_blockVote sender
      msg.roundVote.isReply
    refine ⟨answers.proceeds joined (error_fine (by decide)), answers.advances.votes sender ?_⟩
    rw [Option.any_eq_true] at old
    obtain ⟨held, found, _⟩ := old
    exact .inr (.inl (Option.isSome_iff_exists.mpr ⟨held, found⟩))
  · have counted := withVote_advances key ob sender msg
    have gathered := withVote_gathered joined.toGathered vote
    have answers := answers_replyRoundVote signs gathered.toMember reaches joined.not_blockVote
      sender msg.roundVote.isReply
    have proceeds := countRoundVotes_proceeds signs (answers.gathered gathered)
      (by rw [answers.round]; exact voting) (by rw [answers.round]; exact unacked) few amb
    have advances := answers.advances.trans proceeds.advances
    exact ⟨⟨proceeds.result, proceeds.joined, counted.1.trans advances⟩,
      advances.votes sender (.inr (.inl counted.2))⟩

theorem handleRoundVote_proceeds {msg : RoundVoteMessage} (vote : poll.VoteFrom su sender msg) :
    Proceeds su poll key ob (ob.handleRoundVote su amb sender msg) ∧
      (ob.handleRoundVote su amb sender msg).2.HasVote sender := by
  unfold handleRoundVote
  dsimp only
  rw [verifySender_member joined.toMember vote.member vote.signer]
  rw [if_neg (not_not.mpr (vote.vote.targetHeight.trans joined.target.symm)),
    checkVote_member joined.toMember vote.vote]
  dsimp only
  by_cases voting : ob.round.roundState = .roundVoteState
  · rw [if_pos voting]
    exact applyRoundVote_proceeds signs joined few reaches voting vote
  · rw [if_neg voting]
    split
    · rw [answerBlockVote_eq joined]
      have answers := answers_sendRoundVoteTo signs joined.toMember reaches joined.not_blockVote sender
      exact ⟨answers.proceeds joined (error_fine (by decide)),
        answers.advances.votes sender (.inr (.inr voting))⟩
    · exact ⟨Answers.refl.proceeds joined (error_fine (by decide)), .inr (.inr voting)⟩

end ObserverNode

end Fleta.Pof
