import Fleta.RoundExchange

/-!
# Progress of a round

Observers that follow the same chain and reach the same formulators vote, and all that they
send is delivered in some order. As many of them as there must be votes all come to wait for
blocks of the same formulator. Fewer of them never leave the first state of the round,
although they could sign blocks: a block needs one signature less than a round needs votes.
-/

namespace Fleta.Pof

open List

variable {Acc Ev Tx : Type}

namespace ObserverNode

variable [HashFunction] [HeaderCodec] [Codec] [MessageCodec] {su : Setup Acc Ev Tx} {poll : Poll}
  {key : PublicHash} {ob ob' : ObserverNode Acc Ev Tx}

def withFailures (count : Nat) (ob : ObserverNode Acc Ev Tx) : ObserverNode Acc Ev Tx :=
  { ob with round := { ob.round with voteFailCount := count } }

omit [HashFunction] [HeaderCodec] [Codec] [MessageCodec] in
theorem push_advances (key : PublicHash) (ob : ObserverNode Acc Ev Tx) (item : MessageItem Tx) :
    Advances key ob (ob.push item) := by
  refine .of_silent ?_ ?_ rfl <;>
  · intro other has
    rcases has with ⟨old, queued, rest⟩ | counted
    · exact .inl ⟨old, mem_append_left _ queued, rest⟩
    · exact .inr counted

/-- What the first message of the queue brought is not lost when it is handled. -/
theorem Proceeds.of_popped {item : MessageItem Tx} {rest : List (MessageItem Tx)}
    {handled : Handled Acc Ev Tx} (queue : ob.messageQueue = item :: rest)
    (proceeds : Proceeds su poll key { ob with messageQueue := rest } handled)
    (vote : ∀ msg, item.message = .roundVote msg → handled.2.HasVote item.publicHash)
    (ack : ∀ msg, item.message = .roundVoteAck msg → handled.2.HasAck item.publicHash) :
    Proceeds su poll key ob handled := by
  refine ⟨proceeds.result, proceeds.joined, ?_, ?_, proceeds.advances.sent,
    proceeds.advances.ownVote, proceeds.advances.ownAck⟩
  · intro other has
    rcases has with ⟨old, queued, sender, msg, kind⟩ | counted
    · rw [queue] at queued
      rcases mem_cons.mp queued with rfl | later
      · rw [← sender]
        exact vote msg kind
      · exact proceeds.advances.votes other (.inl ⟨old, later, sender, msg, kind⟩)
    · exact proceeds.advances.votes other (.inr counted)
  · intro other has
    rcases has with ⟨old, queued, sender, msg, kind⟩ | counted
    · rw [queue] at queued
      rcases mem_cons.mp queued with rfl | later
      · rw [← sender]
        exact ack msg kind
      · exact proceeds.advances.acks other (.inl ⟨old, later, sender, msg, kind⟩)
    · exact proceeds.advances.acks other (.inr counted)

variable {amb : Ambient} (signs : poll.Signs su) (joined : Joined su poll key ob)

include joined

theorem withFailures_joined (count : Nat) :
    Joined su poll key (ob.withFailures count) ∧ Advances key ob (ob.withFailures count) :=
  ⟨{ joined with }, .of_silent (fun _ has => has) (fun _ has => has) rfl⟩

theorem failRound_joined (amb : Ambient) (patient : ob.round.voteFailCount < 30) :
    Joined su poll key (ob.failRound amb) ∧ Advances key ob (ob.failRound amb) := by
  have counted := withFailures_joined joined (ob.round.voteFailCount + 1)
  have kept : ¬ob.round.voteFailCount + 1 > 30 := by omega
  unfold failRound
  rw [if_neg kept]
  exact counted

theorem onObserverRecv_proceeds {sender : PublicHash}
    {m : Message Tx} (told : poll.From su sender m) :
    Proceeds su poll key ob (ob.onObserverRecv sender m) ∧
      (∀ msg, m = .roundVote msg → (ob.onObserverRecv sender m).2.HasVote sender) ∧
      ∀ msg, m = .roundVoteAck msg → (ob.onObserverRecv sender m).2.HasAck sender := by
  have queues : ob.onObserverRecv sender m = (.ok (), ob.push ⟨sender, m, false⟩) := by
    unfold onObserverRecv
    split
    · exact told.elim
    · rfl
  have listed : (⟨sender, m, false⟩ : MessageItem Tx) ∈ (ob.push ⟨sender, m, false⟩).messageQueue :=
    mem_append_right _ (mem_singleton.mpr rfl)
  rw [queues]
  refine ⟨⟨ok_fine, { joined with queue := ?_ }, push_advances key ob _⟩, ?_, ?_⟩
  · exact forall_mem_concat joined.queue told
  · intro msg vote
    exact .inl ⟨_, listed, rfl, msg, vote⟩
  · intro msg ack
    exact .inl ⟨_, listed, rfl, msg, ack⟩

include signs

theorem castRoundVote_joined (amb : Ambient) :
    Joined su poll key
        (ob.castRoundVote su (ob.currentVote amb poll.top poll.timeoutCount false)) ∧
      Advances key ob (ob.castRoundVote su (ob.currentVote amb poll.top poll.timeoutCount false)) := by
  obtain ⟨sig, signer, signed⟩ := signing_eq signs joined.toMember
    (.roundVote (ob.currentVote amb poll.top poll.timeoutCount false)) fun sig ob' =>
      (ob'.push ⟨ob'.myPublicHash,
          .roundVote ⟨ob.currentVote amb poll.top poll.timeoutCount false, sig⟩, false⟩).send
        (.broadcast (.roundVote ⟨ob.currentVote amb poll.top poll.timeoutCount false, sig⟩))
  have vote := voteFrom_current joined.toMember amb signer
  unfold castRoundVote
  rw [signed]
  generalize ob.currentVote amb poll.top poll.timeoutCount false = cast at vote ⊢
  have advances : Advances key ob
      (({ ob with signed := .roundVote cast :: ob.signed }.push
        ⟨ob.myPublicHash, .roundVote ⟨cast, sig⟩, false⟩).send (.broadcast (.roundVote ⟨cast, sig⟩))) := by
    have more := push_advances key { ob with signed := .roundVote cast :: ob.signed }
      ⟨ob.myPublicHash, .roundVote ⟨cast, sig⟩, false⟩
    refine ⟨more.votes, more.acks, fun s listed => mem_append_left _ listed, ?_, ?_⟩
    · intro _ _
      refine .inr (.inl ⟨⟨ob.myPublicHash, .roundVote ⟨cast, sig⟩, false⟩, ?_, joined.own, _, rfl⟩)
      exact mem_append_right _ (mem_singleton.mpr rfl)
    · intro msg listed
      rcases mem_append.mp listed with old | new
      · exact .inl old
      · cases mem_singleton.mp new
  refine ⟨{ joined with queue := ?_, sent := ?_, acked := ?_ }, advances⟩
  · rw [joined.own]
    exact forall_mem_concat joined.queue vote
  · exact forall_mem_concat joined.sent fun _ => vote
  · intro left
    obtain ⟨msg, listed⟩ := joined.acked left
    exact ⟨msg, mem_append_left _ listed⟩

variable (reaches : ob.Reaches poll amb)

include reaches

theorem sendRoundVote_joined :
    Joined su poll key (ob.sendRoundVote su amb) ∧ Advances key ob (ob.sendRoundVote su amb) ∧
      (ob.sendRoundVote su amb).round.voteFailCount = 0 := by
  have informed : Answers su poll key ob (ob.informFormulator amb poll.top.address) := by
    unfold informFormulator
    dsimp only
    split
    · exact .refl
    · exact .notExchanged id
  have reset := withFailures_joined (informed.joined joined) 0
  have cast := castRoundVote_joined signs reset.1 amb
  have same : ((ob.informFormulator amb poll.top.address).withFailures 0).currentVote amb poll.top
      poll.timeoutCount false = ob.currentVote amb poll.top poll.timeoutCount false := by
    unfold currentVote withFailures
    rw [informed.ledger]
  rw [same] at cast
  have sends : ob.sendRoundVote su amb = ((ob.informFormulator amb poll.top.address).withFailures 0).castRoundVote
      su (ob.currentVote amb poll.top poll.timeoutCount false) := by
    unfold sendRoundVote
    rw [topRankInMap_member joined.toMember reaches]
    rfl
  rw [sends]
  refine ⟨cast.1, informed.advances.trans (reset.2.trans cast.2), ?_⟩
  rw [(quiet_castRoundVote _).round]
  rfl

theorem voteTimer_proceeds (patient : ob.round.voteFailCount < 30) :
    Proceeds su poll key ob (ob.voteTimer su amb) := by
  have synced : ob.syncVoteRound = (.ok (), ob) := by
    unfold syncVoteRound
    rw [joined.target, joined.height, if_neg (UInt32.lt_irrefl _)]
  unfold voteTimer
  rw [synced]
  dsimp only
  split
  · exact Answers.refl.proceeds joined ok_fine
  · have failed := failRound_joined joined amb patient
    unfold sendVotes
    split
    · have sends := sendRoundVote_joined signs joined reaches
      have announced : Answers su poll key (ob.sendRoundVote su amb)
          (ob.sendRoundVote su amb).broadcastStatus := .notExchanged id
      have failed := failRound_joined (announced.joined sends.1) amb (by
        rw [announced.round, sends.2.2]
        decide)
      exact ⟨ok_fine, failed.1, sends.2.1.trans (announced.advances.trans failed.2)⟩
    · exact absurd (by assumption) joined.not_blockVote
    · exact ⟨ok_fine, failed.1, failed.2⟩

variable [Account Acc] [Event Ev] [Base58] [Msgpack] [AccountCodec Acc] [TxOutCodec] [EventCodec Ev]
  [FormulatorAccount Acc] [Transaction Acc Ev Tx]

theorem queueTimer_proceeds (few : poll.members.length ≤ poll.voteQuorum) :
    Proceeds su poll key ob (ob.queueTimer su amb) := by
  unfold queueTimer
  cases queue : ob.messageQueue with
  | nil => exact Answers.refl.proceeds joined ok_fine
  | cons item rest =>
    have told := joined.queue item (by rw [queue]; exact mem_cons_self)
    have popped : Joined su poll key { ob with messageQueue := rest } := by
      refine { joined with queue := ?_ }
      intro other listed
      exact joined.queue other (by rw [queue]; exact mem_cons_of_mem item listed)
    dsimp only
    unfold handleObserverMessage
    cases kind : item.message with
    | roundVote msg =>
      rw [kind] at told
      have handled := handleRoundVote_proceeds signs popped few reaches told
      apply handled.1.of_popped queue
      · intro _ _
        exact handled.2
      · intro other same
        cases kind.symm.trans same
    | roundVoteAck msg =>
      rw [kind] at told
      have handled := handleRoundVoteAck_proceeds signs popped amb told
      apply handled.1.of_popped queue
      · intro other same
        cases kind.symm.trans same
      · intro _ _
        exact handled.2
    | _ => exact (kind ▸ told).elim

omit signs reaches in
theorem Proceeds.step (amb : Ambient) (input : Input Tx)
    (proceeds : Proceeds su poll key ob (ob.handleInput su amb input)) :
    ob.step su amb input = (ob.handleInput su amb input).2 := by
  unfold ObserverNode.step
  rw [joined.running, if_neg Bool.false_ne_true]
  split <;> rename_i handled
  · exact absurd (congrArg Prod.fst handled) proceeds.result
  · rw [handled]

end ObserverNode

/-- A round vote or an acknowledgement on its way. -/
inductive Ballot where
  | vote (msg : RoundVoteMessage)
  | ack (msg : RoundVoteAckMessage)
deriving DecidableEq

def Ballot.message : Ballot → Message Tx
  | vote msg => .roundVote msg
  | ack msg => .roundVoteAck msg

theorem Ballot.exchanged (ballot : Ballot) : (ballot.message : Message Tx).Exchanged := by
  cases ballot <;> exact trivial

/-- The observers of a poll, and what each has received of whom. -/
structure Exchange (Acc Ev Tx : Type) where
  nodes : PublicHash → ObserverNode Acc Ev Tx
  heard : PublicHash → List (PublicHash × Ballot)

namespace Exchange

def act (key : PublicHash) (ob : ObserverNode Acc Ev Tx) (heard : List (PublicHash × Ballot))
    (net : Exchange Acc Ev Tx) : Exchange Acc Ev Tx where
  nodes := Function.update net.nodes key ob
  heard := Function.update net.heard key heard

/-- The sender has sent the ballot to all or to the observer with the key. -/
def Tells (net : Exchange Acc Ev Tx) (sender key : PublicHash) (ballot : Ballot) : Prop :=
  .broadcast ballot.message ∈ (net.nodes sender).sent ∨
    .toObserver key ballot.message ∈ (net.nodes sender).sent

structure Ready [HashFunction] [HeaderCodec] (poll : Poll) (net : Exchange Acc Ev Tx) : Prop where
  member : ∀ key ∈ poll.members, (net.nodes key).Member poll key
  round : ∀ key ∈ poll.members,
    (net.nodes key).round = .new (poll.height + 1) poll.cs.maxBlocksPerFormulator
  queue : ∀ key ∈ poll.members, (net.nodes key).messageQueue = []
  sent : ∀ key ∈ poll.members, (net.nodes key).sent = []
  heard : ∀ key ∈ poll.members, net.heard key = []

/-- Every member has voted, and all votes and acknowledgements of the members have been
delivered to each other and handled. -/
structure Complete (poll : Poll) (net : Exchange Acc Ev Tx) : Prop where
  voted : ∀ key ∈ poll.members, ∃ msg, .broadcast (.roundVote msg) ∈ (net.nodes key).sent
  delivered : ∀ key ∈ poll.members, ∀ sender ∈ poll.members, sender ≠ key →
    ∀ ballot, net.Tells sender key ballot → (sender, ballot) ∈ net.heard key
  handled : ∀ key ∈ poll.members, (net.nodes key).messageQueue = []

section Sound

variable [HashFunction] [HeaderCodec] [Codec] [MessageCodec] {su : Setup Acc Ev Tx} {poll : Poll}
  {net net' : Exchange Acc Ev Tx} {key : PublicHash}

structure Holds (su : Setup Acc Ev Tx) (poll : Poll) (key : PublicHash) (ob : ObserverNode Acc Ev Tx)
    (heard : List (PublicHash × Ballot)) : Prop where
  joined : ob.Joined su poll key
  votes : ∀ sender msg, (sender, .vote msg) ∈ heard → ob.HasVote sender
  acks : ∀ sender msg, (sender, .ack msg) ∈ heard → ob.HasAck sender
  ownVote : ∀ msg, .broadcast (.roundVote msg) ∈ ob.sent → ob.HasVote key
  ownAck : ∀ msg, .broadcast (.roundVoteAck msg) ∈ ob.sent → ob.HasAck key

theorem Holds.proceeds {ob : ObserverNode Acc Ev Tx} {heard : List (PublicHash × Ballot)}
    {handled : ObserverNode.Handled Acc Ev Tx} (holds : Holds su poll key ob heard)
    (proceeds : ObserverNode.Proceeds su poll key ob handled) : Holds su poll key handled.2 heard where
  joined := proceeds.joined
  votes sender msg listed := proceeds.advances.votes sender (holds.votes sender msg listed)
  acks sender msg listed := proceeds.advances.acks sender (holds.acks sender msg listed)
  ownVote msg listed := by
    rcases proceeds.advances.ownVote msg listed with before | has
    · exact proceeds.advances.votes key (holds.ownVote msg before)
    · exact has
  ownAck msg listed := by
    rcases proceeds.advances.ownAck msg listed with before | has
    · exact proceeds.advances.acks key (holds.ownAck msg before)
    · exact has

def Sound (su : Setup Acc Ev Tx) (poll : Poll) (net : Exchange Acc Ev Tx) : Prop :=
  ∀ key ∈ poll.members, Holds su poll key (net.nodes key) (net.heard key)

theorem Ready.sound (ready : net.Ready poll) : Sound su poll net := by
  intro key member
  have unsent : ∀ s, s ∉ (net.nodes key).sent := by
    intro s listed
    rw [ready.sent key member] at listed
    cases listed
  have round := ready.round key member
  refine ⟨⟨⟨ready.member key member, ?_, fun s listed => absurd listed (unsent s), ?_, ?_, ?_, ?_⟩, ?_, ?_⟩,
    ?_, ?_, fun msg listed => absurd listed (unsent _), fun msg listed => absurd listed (unsent _)⟩
  · intro item listed
    rw [ready.queue key member] at listed
    cases listed
  iterate 3
    · intro other msg found
      rw [round] at found
      cases found
  · intro height br found
    rw [round] at found
    rw [(VoteRound.new_entry found).1]
    rfl
  · rw [round]
    exact ⟨Nat.succ_pos _, rfl⟩
  · intro left
    rw [round] at left
    exact absurd rfl left
  all_goals
    intro sender msg listed
    rw [ready.heard key member] at listed
    cases listed

variable (sound : Sound su poll net)

include sound

theorem Sound.told {sender : PublicHash} (sends : sender ∈ poll.members)
    {ballot : Ballot} (tells : net.Tells sender key ballot) :
    poll.From su sender (ballot.message : Message Tx) := by
  have sent := (sound sender sends).joined.sent
  rcases tells with toAll | toOne
  · exact sent _ toAll ballot.exchanged
  · exact sent _ toOne ballot.exchanged

theorem Sound.act {ob : ObserverNode Acc Ev Tx}
    {heard : List (PublicHash × Ballot)} (holds : Holds su poll key ob heard) :
    Sound su poll (net.act key ob heard) := by
  intro other listed
  unfold Exchange.act
  dsimp only
  by_cases same : other = key
  · subst same
    rw [Function.update_self, Function.update_self]
    exact holds
  · rw [Function.update_of_ne same, Function.update_of_ne same]
    exact sound other listed

variable (complete : net.Complete poll)

include complete

theorem Sound.voted
    (member : key ∈ poll.members) {other : PublicHash} (listed : other ∈ poll.members) :
    ((net.nodes key).round.roundVoteMessageMap.get other).isSome = true ∨
      (net.nodes key).round.roundState ≠ .roundVoteState := by
  obtain ⟨msg, sent⟩ := complete.voted other listed
  have has : (net.nodes key).HasVote other := by
    by_cases own : other = key
    · subst own
      exact (sound other member).ownVote msg sent
    · have heard := complete.delivered key member other listed own (.vote msg) (.inl sent)
      exact (sound key member).votes other msg heard
  rcases has with ⟨item, queued, _⟩ | counted
  · rw [complete.handled key member] at queued
    cases queued
  · exact counted

theorem Sound.acknowledges
    (enough : poll.voteQuorum ≤ poll.members.length) (member : key ∈ poll.members) :
    (net.nodes key).round.roundState ≠ .roundVoteState := by
  intro voting
  have counted : ∀ other ∈ poll.members,
      ((net.nodes key).round.roundVoteMessageMap.get other).isSome = true := by
    intro other listed
    exact (sound.voted complete member listed).resolve_right (not_not.mpr voting)
  have phase := (sound key member).joined.phase
  unfold ObserverNode.Phase at phase
  rw [voting] at phase
  have bound := poll.le_len counted
  exact absurd phase.1 (Nat.not_lt.mpr (Nat.le_trans enough bound))

/-- Enough members come to wait for a block of the first formulator they reach. -/
theorem Sound.waits (enough : poll.voteQuorum ≤ poll.members.length) (member : key ∈ poll.members) :
    (net.nodes key).round.roundState = .blockWaitState ∧
      ∃ ack, (net.nodes key).round.minRoundVoteAck = some ack ∧
        ack.formulator = poll.top.address := by
  have joined := (sound key member).joined
  have left := sound.acknowledges complete enough member
  have counted : ∀ other ∈ poll.members,
      ((net.nodes key).round.roundVoteAckMessageMap.get other).isSome = true ∨
        (net.nodes key).round.roundState = .blockWaitState := by
    intro other listed
    obtain ⟨msg, sent⟩ := (sound other listed).joined.acked (sound.acknowledges complete enough listed)
    have has : (net.nodes key).HasAck other := by
      by_cases own : other = key
      · subst own
        exact (sound other member).ownAck msg sent
      · have heard := complete.delivered key member other listed own (.ack msg) (.inl sent)
        exact (sound key member).acks other msg heard
    rcases has with ⟨item, queued, _⟩ | counted | waits | ⟨voting, _⟩
    · rw [complete.handled key member] at queued
      cases queued
    · exact .inl counted
    · exact .inr waits
    · exact absurd voting left
  have phase := joined.phase
  unfold ObserverNode.Phase at phase
  cases state : (net.nodes key).round.roundState with
  | roundVoteState => exact absurd state left
  | roundVoteAckState =>
    rw [state] at phase counted
    have bound := poll.le_len fun other listed =>
      (counted other listed).resolve_right fun same => RoundState.noConfusion same
    have fewer : poll.ackQuorum ≤ poll.voteQuorum := Nat.le_succ _
    exact absurd phase.2 (Nat.not_lt.mpr (Nat.le_trans fewer (Nat.le_trans enough bound)))
  | blockWaitState =>
    rw [state] at phase
    exact ⟨rfl, phase.2⟩
  | blockVoteState => exact absurd state joined.not_blockVote

end Sound

variable [Account Acc] [Event Ev] [Base58] [HashFunction] [Msgpack] [HeaderCodec]
  [AccountCodec Acc] [TxOutCodec] [EventCodec Ev] [FormulatorAccount Acc] [Codec] [MessageCodec]
  [Transaction Acc Ev Tx]

/-- What happens to the members: the vote timer, before the round is given up; the queue;
and the delivery of a ballot of another member. Nobody else sends anything. -/
inductive Step (su : Setup Acc Ev Tx) (poll : Poll) : Exchange Acc Ev Tx → Exchange Acc Ev Tx → Prop
  | vote {net : Exchange Acc Ev Tx} {key : PublicHash} (amb : Ambient) (member : key ∈ poll.members)
      (reaches : (net.nodes key).Reaches poll amb)
      (patient : (net.nodes key).round.voteFailCount < 30) :
      Step su poll net (net.act key ((net.nodes key).step su amb .voteTimer) (net.heard key))
  | handle {net : Exchange Acc Ev Tx} {key : PublicHash} (amb : Ambient) (member : key ∈ poll.members)
      (reaches : (net.nodes key).Reaches poll amb) :
      Step su poll net (net.act key ((net.nodes key).step su amb .queueTimer) (net.heard key))
  | deliver {net : Exchange Acc Ev Tx} {key sender : PublicHash} {ballot : Ballot} (amb : Ambient)
      (member : key ∈ poll.members) (sends : sender ∈ poll.members) (other : sender ≠ key)
      (tells : net.Tells sender key ballot) :
      Step su poll net (net.act key
        ((net.nodes key).step su amb (.observerRecv sender ballot.message))
        ((sender, ballot) :: net.heard key))

abbrev Run (su : Setup Acc Ev Tx) (poll : Poll) : Exchange Acc Ev Tx → Exchange Acc Ev Tx → Prop :=
  Relation.ReflTransGen (Step su poll)

variable {su : Setup Acc Ev Tx} {poll : Poll} {net net' : Exchange Acc Ev Tx} {key : PublicHash}

theorem Sound.step (signs : poll.Signs su) (few : poll.members.length ≤ poll.voteQuorum)
    (sound : Sound su poll net) (step : Step su poll net net') : Sound su poll net' := by
  cases step with
  | @vote acting amb member reaches patient =>
    have holds := sound acting member
    have proceeds := ObserverNode.voteTimer_proceeds signs holds.joined reaches patient
    rw [ObserverNode.Proceeds.step holds.joined amb .voteTimer proceeds]
    exact sound.act (holds.proceeds proceeds)
  | @handle acting amb member reaches =>
    have holds := sound acting member
    have proceeds := ObserverNode.queueTimer_proceeds signs holds.joined reaches few
    rw [ObserverNode.Proceeds.step holds.joined amb .queueTimer proceeds]
    exact sound.act (holds.proceeds proceeds)
  | @deliver acting sender ballot amb member sends different tells =>
    have holds := sound acting member
    have received := ObserverNode.onObserverRecv_proceeds holds.joined (sound.told sends tells)
    rw [ObserverNode.Proceeds.step holds.joined amb (.observerRecv sender ballot.message) received.1]
    have kept := holds.proceeds received.1
    refine sound.act { kept with votes := ?_, acks := ?_ }
    · intro teller msg heard
      rcases mem_cons.mp heard with new | old
      · cases new
        exact received.2.1 msg rfl
      · exact kept.votes teller msg old
    · intro teller msg heard
      rcases mem_cons.mp heard with new | old
      · cases new
        exact received.2.2 msg rfl
      · exact kept.acks teller msg old

theorem Sound.run (signs : poll.Signs su) (few : poll.members.length ≤ poll.voteQuorum)
    (sound : Sound su poll net) (run : Run su poll net net') : Sound su poll net' := by
  induction run with
  | refl => exact sound
  | tail _ step ih => exact ih.step signs few step

/-- Observers that all vote, and whose votes and acknowledgements are all delivered to each
other, come to wait for blocks of one formulator exactly if they are one more than sign a block. -/
theorem round_progress_iff (signs : poll.Signs su) (some : poll.members ≠ [])
    (few : poll.members.length ≤ poll.cs.observerKeyMap.len / 2 + 2) {start : Exchange Acc Ev Tx}
    (ready : start.Ready poll) (run : Run su poll start net) (complete : net.Complete poll) :
    (∃ formulator, ∀ key ∈ poll.members, (net.nodes key).round.roundState = .blockWaitState ∧
      ∃ ack, (net.nodes key).round.minRoundVoteAck = .some ack ∧ ack.formulator = formulator) ↔
    poll.members.length = poll.cs.observerKeyMap.len / 2 + 2 := by
  have initial : Sound su poll start := ready.sound
  have sound := initial.run signs few run
  constructor
  · rintro ⟨formulator, waits⟩
    obtain ⟨key, member⟩ := exists_mem_of_ne_nil _ some
    have phase := (sound key member).joined.phase
    unfold ObserverNode.Phase at phase
    rw [(waits key member).1] at phase
    exact Nat.le_antisymm few phase.1
  · intro enough
    exact ⟨poll.top.address, fun key member => sound.waits complete (Nat.le_of_eq enough.symm) member⟩

end Exchange

end Fleta.Pof

namespace Fleta.ObserverInstances

open Pof Instances

abbrev SomeExchange := Exchange SingleAccount PlainEvent SetData

def ballotFor {Tx : Type} (key : PublicHash) : Sent Tx → Option Ballot
  | .broadcast (.roundVote msg) => some (.vote msg)
  | .broadcast (.roundVoteAck msg) => some (.ack msg)
  | .toObserver target (.roundVote msg) => if target = key then some (.vote msg) else none
  | .toObserver target (.roundVoteAck msg) => if target = key then some (.ack msg) else none
  | _ => none

def told (net : SomeExchange) (sender key : PublicHash) : List Ballot :=
  (net.nodes sender).sent.filterMap (ballotFor key)

variable {net : SomeExchange}

theorem tells_iff {sender key : PublicHash} {ballot : Ballot} :
    net.Tells sender key ballot ↔ ballot ∈ told net sender key := by
  unfold Exchange.Tells told
  rw [List.mem_filterMap]
  constructor
  · rintro (toAll | toOne)
    · refine ⟨_, toAll, ?_⟩
      cases ballot <;> rfl
    · refine ⟨_, toOne, ?_⟩
      cases ballot <;> exact if_pos rfl
  · rintro ⟨s, listed, found⟩
    unfold ballotFor at found
    split at found
    · cases found
      exact .inl listed
    · cases found
      exact .inl listed
    case h_5 => cases found
    all_goals
      split at found
      · rename_i same
        cases found
        exact .inr (same ▸ listed)
      · cases found

def threeKeysPoll (members : List PublicHash) (distinct : members.Nodup)
    (observers : ∀ key ∈ members, threeKeys.has key = true) : Poll where
  members := members
  chainID := 1
  height := 0
  lastHash := []
  cs := firstLedger.cs
  connected := [someAddress]
  top := ⟨someAddress, [9], 0, []⟩
  timeoutCount := 0
  distinct := distinct
  observers := observers
  first := by decide +kernel
  fits := by decide

inductive Turn where
  | vote (key : PublicHash)
  | handle (key : PublicHash)
  | deliver (key sender : PublicHash)

def nextBallot (net : SomeExchange) (sender key : PublicHash) : Option Ballot :=
  (told net sender key).find? fun ballot => !(net.heard key).contains (sender, ballot)

def takeTurn (poll : Poll) (net : SomeExchange) : Turn → Option SomeExchange
  | .vote key =>
    if poll.members.contains key ∧ (net.nodes key).adjustFormulatorMap someAmbient = poll.connected ∧
        (net.nodes key).round.voteFailCount < 30 then
      some (net.act key ((net.nodes key).step observerSetup someAmbient .voteTimer) (net.heard key))
    else none
  | .handle key =>
    if poll.members.contains key ∧
        (net.nodes key).adjustFormulatorMap someAmbient = poll.connected then
      some (net.act key ((net.nodes key).step observerSetup someAmbient .queueTimer) (net.heard key))
    else none
  | .deliver key sender =>
    if poll.members.contains key ∧ poll.members.contains sender ∧ sender ≠ key then
      match nextBallot net sender key with
      | none => some net
      | some ballot =>
        some (net.act key
          ((net.nodes key).step observerSetup someAmbient (.observerRecv sender ballot.message))
          ((sender, ballot) :: net.heard key))
    else none

theorem run_of_turns {poll : Poll} {turns : List Turn} {net net' : SomeExchange}
    (taken : turns.foldlM (takeTurn poll) net = some net') : Exchange.Run observerSetup poll net net' := by
  induction turns generalizing net with
  | nil =>
    cases taken
    exact .refl
  | cons turn rest ih =>
    rw [List.foldlM_cons, Option.bind_eq_bind, Option.bind_eq_some_iff] at taken
    obtain ⟨next, took, later⟩ := taken
    refine Relation.ReflTransGen.trans ?_ (ih later)
    cases turn with
    | vote key =>
      rw [takeTurn] at took
      split at took
      · rename_i allowed
        cases took
        refine .single (.vote someAmbient (List.contains_iff_mem.mp allowed.1) ?_ allowed.2.2)
        intro addr
        rw [allowed.2.1]
      · cases took
    | handle key =>
      rw [takeTurn] at took
      split at took
      · rename_i allowed
        cases took
        refine .single (.handle someAmbient (List.contains_iff_mem.mp allowed.1) ?_)
        intro addr
        rw [allowed.2]
      · cases took
    | deliver key sender =>
      rw [takeTurn] at took
      split at took
      · rename_i allowed
        split at took
        · cases took
          exact .refl
        · rename_i ballot found
          cases took
          refine .single (.deliver someAmbient (List.contains_iff_mem.mp allowed.1)
            (List.contains_iff_mem.mp allowed.2.1) allowed.2.2 ?_)
          exact tells_iff.mpr (List.mem_of_find?_eq_some found)
      · cases took

def sweep (keys : List PublicHash) (rounds : Nat) : List Turn :=
  keys.map .vote ++ (List.replicate rounds
    (keys.flatMap fun key =>
      ((keys.filter (· != key)).map (.deliver key)) ++ [.handle key, .handle key])).flatten

def isVote {Tx : Type} : Sent Tx → Bool
  | .broadcast (.roundVote _) => true
  | _ => false

def isComplete (keys : List PublicHash) (net : SomeExchange) : Bool :=
  keys.all fun key =>
    (net.nodes key).sent.any isVote &&
    (net.nodes key).messageQueue.isEmpty &&
    keys.all fun sender =>
      sender == key || (told net sender key).all fun ballot => (net.heard key).contains (sender, ballot)

def threeStarting : SomeExchange where
  nodes key := .new key firstLedger
  heard _ := []

theorem complete_of_isComplete {poll : Poll}
    (checked : isComplete poll.members net = true) : net.Complete poll := by
  unfold isComplete at checked
  simp only [List.all_eq_true, Bool.and_eq_true] at checked
  constructor
  · intro key member
    obtain ⟨⟨voted, _⟩, _⟩ := checked key member
    obtain ⟨s, sent, kind⟩ := List.any_eq_true.mp voted
    unfold isVote at kind
    split at kind
    · rename_i msg
      exact ⟨msg, sent⟩
    · cases kind
  · intro key member sender sends different ballot tells
    obtain ⟨_, all⟩ := checked key member
    have known := all sender sends
    rw [Bool.or_eq_true, beq_iff_eq, List.all_eq_true] at known
    have heard := known.resolve_left different ballot (tells_iff.mp tells)
    exact List.contains_iff_mem.mp heard
  · intro key member
    obtain ⟨⟨_, handled⟩, _⟩ := checked key member
    exact List.isEmpty_iff.mp handled

theorem ready_threeStarting (members : List PublicHash) (distinct : members.Nodup)
    (observers : ∀ key ∈ members, threeKeys.has key = true) :
    threeStarting.Ready (threeKeysPoll members distinct observers) := by
  have chain : firstLedger.store.lastHash = [] ∧ firstLedger.store.height = 0 := by
    decide +kernel
  refine ⟨?_, ?_, fun _ _ => rfl, fun _ _ => rfl, fun _ _ => rfl⟩
  · intro key member
    refine ⟨member, rfl, rfl, chain.2, chain.1, rfl, ?_, rfl⟩
    change firstLedger.store.height + 1 = 0 + 1
    rw [chain.2]
  · intro key member
    change VoteRound.new (firstLedger.store.height + 1) _ = VoteRound.new (0 + 1) _
    rw [chain.2]
    rfl

theorem recoverKey_own (nonce : Bytes) (key : PublicHash) (digest : Hash256) :
    recoverKey digest (signWith nonce key digest) = .ok key := by
  unfold recoverKey signWith
  simp only [unfield_field]
  exact if_pos trivial

theorem observerSetup_signs (poll : Poll) : poll.Signs observerSetup := by
  have recovers : observerSetup.cn.recoverPublicHash = recoverKey := rfl
  intro key member digest
  refine ⟨signWith [] key digest, rfl, ?_⟩
  rw [recovers, recoverKey_own]

theorem pair_observers : ([[1], [2]] : List PublicHash).Nodup ∧
    ∀ key ∈ ([[1], [2]] : List PublicHash), threeKeys.has key = true := by
  decide +kernel

theorem triple_observers : ([[1], [2], [3]] : List PublicHash).Nodup ∧
    ∀ key ∈ ([[1], [2], [3]] : List PublicHash), threeKeys.has key = true := by
  decide +kernel

def pairPoll : Poll := threeKeysPoll [[1], [2]] pair_observers.1 pair_observers.2

def triplePoll : Poll := threeKeysPoll [[1], [2], [3]] triple_observers.1 triple_observers.2

theorem pair_swept :
    (((sweep [[1], [2]] 4).foldlM (takeTurn pairPoll) threeStarting).any fun net =>
      isComplete [[1], [2]] net && decide (∀ key ∈ pairPoll.members,
        (net.nodes key).round.roundState = .roundVoteState)) = true := by
  decide +kernel

/-- Two of three observers could sign a block, but stay in the first state of the round. -/
theorem pair_stays :
    threeStarting.Ready pairPoll ∧ pairPoll.cs.observerKeyMap.len = 3 ∧
      pairPoll.members.length = 3 / 2 + 1 ∧
      ∃ net : SomeExchange, Exchange.Run observerSetup pairPoll threeStarting net ∧
        net.Complete pairPoll ∧
        ∀ key ∈ pairPoll.members, (net.nodes key).round.roundState = .roundVoteState := by
  have swept := pair_swept
  rw [Option.any_eq_true] at swept
  obtain ⟨net, taken, checked⟩ := swept
  rw [Bool.and_eq_true, decide_eq_true_eq] at checked
  have ready := ready_threeStarting [[1], [2]] pair_observers.1 pair_observers.2
  have keys : threeKeys.len = 3 := by decide +kernel
  exact ⟨ready, keys, rfl, net, run_of_turns taken, complete_of_isComplete checked.1, checked.2⟩

theorem triple_swept :
    (((sweep [[1], [2], [3]] 5).foldlM (takeTurn triplePoll) threeStarting).any
      (isComplete [[1], [2], [3]])) = true := by
  decide +kernel

/-- All three observers come to wait for a block. -/
theorem triple_waits :
    ∃ net : SomeExchange, Exchange.Run observerSetup triplePoll threeStarting net ∧
      net.Complete triplePoll ∧ ∃ formulator, ∀ key ∈ triplePoll.members,
        (net.nodes key).round.roundState = .blockWaitState ∧
          ∃ ack, (net.nodes key).round.minRoundVoteAck = some ack ∧ ack.formulator = formulator := by
  have swept := triple_swept
  rw [Option.any_eq_true] at swept
  obtain ⟨net, taken, checked⟩ := swept
  have ready := ready_threeStarting [[1], [2], [3]] triple_observers.1 triple_observers.2
  have run := run_of_turns taken
  have complete : net.Complete triplePoll := complete_of_isComplete checked
  have keys : triplePoll.members.length = triplePoll.cs.observerKeyMap.len / 2 + 2 := by
    decide +kernel
  have progress := Exchange.round_progress_iff (observerSetup_signs triplePoll)
    (List.cons_ne_nil _ _) (Nat.le_of_eq keys) ready run complete
  exact ⟨net, run, complete, progress.mpr keys⟩

end Fleta.ObserverInstances
