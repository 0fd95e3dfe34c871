import Fleta.ObserverHandler

/-!
# What an observer can do

Every handler and every timer is a sequence of moves, each of which changes one thing of
an observer and says what the source has checked before. The invariants of an observer
are proved over the moves.
-/

namespace Fleta.Pof

variable {Acc Ev Tx : Type}

namespace ObserverNode

structure SameCore (ob ob' : ObserverNode Acc Ev Tx) : Prop where
  ledger : ob'.ledger = ob.ledger
  myPublicHash : ob'.myPublicHash = ob.myPublicHash
  roundState : ob'.round.roundState = ob.round.roundState
  targetHeight : ob'.round.targetHeight = ob.round.targetHeight
  minRoundVoteAck : ob'.round.minRoundVoteAck = ob.round.minRoundVoteAck
  blockRoundMap : ob'.round.blockRoundMap = ob.round.blockRoundMap
  blockQ : ob'.blockQ = ob.blockQ
  messageQueue : ob'.messageQueue = ob.messageQueue
  signed : ob'.signed = ob.signed
  connected : ob'.connected = ob.connected

theorem sameCore_ignoreFormulator (amb : Ambient) (ob : ObserverNode Acc Ev Tx) :
    SameCore ob (ob.ignoreFormulator amb) := by
  unfold ignoreFormulator
  split <;> exact ⟨rfl, rfl, rfl, rfl, rfl, rfl, rfl, rfl, rfl, rfl⟩

structure SameVotes (br br' : BlockRound Acc Ev Tx) : Prop where
  blockGenMessage : br'.blockGenMessage = br.blockGenMessage
  blockVoteMap : br'.blockVoteMap = br.blockVoteMap
  context : br'.context.isSome = br.context.isSome

structure Voting (br : BlockRound Acc Ev Tx) (gen : BlockGenMessage Tx)
    (ob : ObserverNode Acc Ev Tx) : Prop where
  state : ob.round.roundState = .blockVoteState
  found : ob.round.blockRoundMap.get ob.round.targetHeight = some br
  held : br.blockGenMessage = some gen

theorem keepTurn_get (bound : UInt32) (formulator : Address)
    (map : SortedMap UInt32 (BlockRound Acc Ev Tx)) (height : UInt32) :
    (keepTurn bound formulator map).get height = (map.get height).bind fun br =>
      if height ≥ bound then none else some { br with
        blockGenMessageWait := br.blockGenMessageWait.filter fun gen =>
          gen.block.header.generator == formulator } := by
  unfold keepTurn
  rw [SortedMap.get_foldl_eachAll _ height height
    (fun br _ => if height ≥ bound then none else some { br with
      blockGenMessageWait := br.blockGenMessageWait.filter fun gen =>
        gen.block.header.generator == formulator })]
  · cases map.get height <;> rfl
  · intro map entry
    by_cases same : entry.1 = height
    · subst same
      by_cases late : entry.1 ≥ bound <;> simp [late]
    · rw [if_neg same]
      split
      · exact SortedMap.get_delete_of_ne _ same
      · exact SortedMap.get_put_of_ne _ _ same

theorem keepTurn_entry {bound : UInt32} {formulator : Address}
    {map : SortedMap UInt32 (BlockRound Acc Ev Tx)} {height : UInt32} {br' : BlockRound Acc Ev Tx}
    (found : (keepTurn bound formulator map).get height = some br') :
    ∃ br, map.get height = some br ∧ SameVotes br br' ∧
      br'.blockVoteMessageWaitMap = br.blockVoteMessageWaitMap := by
  rw [keepTurn_get, Option.bind_eq_some_iff] at found
  obtain ⟨br, old, kept⟩ := found
  split at kept
  · cases kept
  · cases kept
    exact ⟨br, old, ⟨rfl, rfl, rfl⟩, rfl⟩

theorem popUntil_fewer {priority : Nat} {queue rest : SortedMap Nat (Block Tx)}
    {found : Option (Block Tx)} (popped : popUntil priority queue = (found, rest)) :
    (∀ key b, rest.get key = some b → queue.get key = some b) ∧
      ∀ b, found = some b → queue.get priority = some b := by
  unfold popUntil at popped
  dsimp only at popped
  have fewer : ∀ key b,
      (((queue.eachAll.map Prod.fst).filter fun key => decide (key < priority)).foldl
        (·.delete ·) queue).get key = some b → queue.get key = some b := by
    intro key b kept
    rw [SortedMap.get_foldl_delete] at kept
    split at kept
    · cases kept
    · exact kept
  split at popped
  · cases popped
    refine ⟨fewer, ?_⟩
    intro b missing
    cases missing
  · rename_i b got
    cases popped
    constructor
    · intro key other kept
      exact fewer key other (SortedMap.get_of_get_delete kept)
    · intro other same
      cases same
      exact fewer priority b got

section Quiet

structure Quiet (ob ob' : ObserverNode Acc Ev Tx) : Prop where
  ledger : ob'.ledger = ob.ledger
  round : ob'.round = ob.round
  myPublicHash : ob'.myPublicHash = ob.myPublicHash
  connected : ob'.connected = ob.connected

variable {ob : ObserverNode Acc Ev Tx} {br : BlockRound Acc Ev Tx} {gen : BlockGenMessage Tx}

theorem Quiet.refl (ob : ObserverNode Acc Ev Tx) : Quiet ob ob := ⟨rfl, rfl, rfl, rfl⟩

theorem quiet_foldl {Item : Type} (f : ObserverNode Acc Ev Tx → Item → ObserverNode Acc Ev Tx)
    (quiet : ∀ ob item, Quiet ob (f ob item)) (list : List Item) (ob : ObserverNode Acc Ev Tx) :
    Quiet ob (list.foldl f ob) := by
  induction list generalizing ob with
  | nil => exact .refl ob
  | cons item list ih =>
    have first := quiet ob item
    have rest := ih (f ob item)
    exact ⟨rest.ledger.trans first.ledger, rest.round.trans first.round,
      rest.myPublicHash.trans first.myPublicHash, rest.connected.trans first.connected⟩

theorem Voting.quiet {ob' : ObserverNode Acc Ev Tx} (voting : ob.Voting br gen) (quiet : Quiet ob ob') :
    ob'.Voting br gen where
  state := quiet.round ▸ voting.state
  found := quiet.round ▸ voting.found
  held := voting.held

variable [HashFunction] [Codec] [MessageCodec] {su : Setup Acc Ev Tx}

theorem quiet_signing {s : Signable}
    {next : Signature → ObserverNode Acc Ev Tx → ObserverNode Acc Ev Tx}
    (after : ∀ sig ob, Quiet ob (next sig ob)) : Quiet ob (ob.signing su s next) := by
  unfold signing
  split
  · exact .refl ob
  · exact { after _ _ with }

variable [HeaderCodec]

theorem quiet_signingBlockVote (isReply : Bool)
    {next : BlockVoteMessage → ObserverNode Acc Ev Tx → ObserverNode Acc Ev Tx}
    (after : ∀ msg ob, Quiet ob (next msg ob)) :
    Quiet ob (ob.signingBlockVote su gen isReply next) := by
  exact quiet_signing fun _ _ => quiet_signing fun _ _ => after _ _

theorem quiet_sendBlockVote : Quiet ob (ob.sendBlockVote su gen) := by
  exact quiet_signingBlockVote false fun _ _ => ⟨rfl, rfl, rfl, rfl⟩

theorem quiet_sendBlockVoteTo (target : PublicHash) : Quiet ob (ob.sendBlockVoteTo su gen target) := by
  unfold sendBlockVoteTo
  split
  · exact .refl ob
  · exact quiet_signingBlockVote true fun _ _ => ⟨rfl, rfl, rfl, rfl⟩

omit [HeaderCodec] in
theorem quiet_castRoundVote (vote : RoundVote) : Quiet ob (ob.castRoundVote su vote) := by
  exact quiet_signing fun _ _ => ⟨rfl, rfl, rfl, rfl⟩

section

variable (amb : Ambient)

include amb

theorem roundState_sendRoundVote :
    (ob.sendRoundVote su amb).round.roundState = ob.round.roundState := by
  unfold sendRoundVote
  split
  · rfl
  · rw [(quiet_castRoundVote _).round]
    unfold informFormulator
    dsimp only
    split <;> rfl

variable (target : PublicHash)

theorem quiet_sendRoundVoteTo : Quiet ob (ob.sendRoundVoteTo su amb target) := by
  have reply : ∀ vote, Quiet ob (ob.signing su (.roundVote vote) fun sig ob =>
      ob.send (.toObserver target (.roundVote ⟨vote, sig⟩))) :=
    fun _ => quiet_signing fun _ _ => ⟨rfl, rfl, rfl, rfl⟩
  unfold sendRoundVoteTo
  split
  · exact .refl ob
  split
  · split
    · exact .refl ob
    · split <;> exact reply _
  · split
    · exact .refl ob
    · exact reply _

theorem quiet_sendRoundVoteAckTo : Quiet ob (ob.sendRoundVoteAckTo su amb target) := by
  unfold sendRoundVoteAckTo
  split
  · exact .refl ob
  split
  · exact .refl ob
  · exact quiet_signing fun _ _ => ⟨rfl, rfl, rfl, rfl⟩

variable (sender : PublicHash) (isReply : Bool)

theorem quiet_replyRoundVote : Quiet ob (ob.replyRoundVote su amb sender isReply) := by
  unfold replyRoundVote
  split
  · exact quiet_sendRoundVoteTo amb sender
  · exact .refl ob

theorem quiet_replyRoundVoteAck : Quiet ob (ob.replyRoundVoteAck su amb sender isReply) := by
  unfold replyRoundVoteAck
  split
  · exact quiet_sendRoundVoteAckTo amb sender
  · exact .refl ob

end

theorem quiet_replyBlockVote (su : Setup Acc Ev Tx) (gen : BlockGenMessage Tx) (sender : PublicHash)
    (isReply : Bool) (ob : ObserverNode Acc Ev Tx) :
    Quiet ob (ob.replyBlockVote su gen sender isReply) := by
  unfold replyBlockVote
  split
  · exact quiet_sendBlockVoteTo sender
  · exact .refl ob

omit [Codec] [MessageCodec] in
theorem quiet_announceBlock (ack : RoundVoteAck) (b : Block Tx) (vote : BlockVote)
    (sigs : List Signature) (adjustMap : List Address) (nextTop : Option Address)
    (ob : ObserverNode Acc Ev Tx) :
    Quiet ob (ob.announceBlock ack b vote sigs adjustMap nextTop) := by
  unfold announceBlock
  split
  · split <;> exact ⟨rfl, rfl, rfl, rfl⟩
  · dsimp only
    split
    · exact .refl ob
    · apply quiet_foldl
      exact fun ob r => ⟨rfl, rfl, rfl, rfl⟩

end Quiet

theorem height_ne_succ (height : UInt32) : height ≠ height + 1 := by
  intro same
  have values := congrArg UInt32.toNat same
  rw [UInt32.toNat_add, UInt32.toNat_one] at values
  omega

section Checks

variable [HashFunction] [HeaderCodec] [Codec] {su : Setup Acc Ev Tx} {ob : ObserverNode Acc Ev Tx}
  {br : BlockRound Acc Ev Tx}

theorem checkBlockGen_ok {msg : BlockGenMessage Tx} (passed : ob.checkBlockGen su br msg = .ok ()) :
    ob.ledger.store.validateHeader msg.block.header = .ok () ∧
      ∃ ack, ob.round.minRoundVoteAck = some ack ∧
        su.cn.recoverPublicHash msg.block.header.hash msg.generatorSignature =
          .ok ack.formulatorPublicHash := by
  unfold checkBlockGen at passed
  dsimp only at passed
  iterate 4
    split at passed
    · cases passed
  rename_i ack chosen
  iterate 3
    split at passed
    · cases passed
  rename_i signer recovered
  split at passed
  · cases passed
  split at passed
  · cases passed
  rename_i own
  rw [Decidable.not_not] at own
  exact ⟨passed, ack, chosen, own ▸ recovered⟩

structure CheckedVote (su : Setup Acc Ev Tx) (gen : BlockGenMessage Tx) (sender : PublicHash)
    (vote : BlockVote) (ob : ObserverNode Acc Ev Tx) : Prop where
  same : vote.header.hash = gen.block.header.hash
  valid : ob.ledger.store.validateHeader vote.header = .ok ()
  signedBy : su.cn.recoverPublicHash
    (BlockSign.hash ⟨vote.header.hash, vote.generatorSignature⟩) vote.observerSignature = .ok sender
  generated : ∃ timeoutCount top ack,
    Consensus.decodeConsensusData vote.header.consensusData = .ok timeoutCount ∧
      ob.ledger.cs.rt.topRank timeoutCount.toNat = .ok top ∧
      vote.header.generator = top.address ∧ ob.round.minRoundVoteAck = some ack ∧
      top.publicHash = ack.formulatorPublicHash

variable {sender : PublicHash} {vote : BlockVote}

theorem CheckedVote.congr {gen : BlockGenMessage Tx}
    {ob' : ObserverNode Acc Ev Tx} (checked : CheckedVote su gen sender vote ob)
    (ledger : ob'.ledger = ob.ledger) (ack : ob'.round.minRoundVoteAck = ob.round.minRoundVoteAck) :
    CheckedVote su gen sender vote ob' where
  same := checked.same
  valid := ledger ▸ checked.valid
  signedBy := checked.signedBy
  generated := by rw [ledger, ack]; exact checked.generated

theorem checkBlockVote_ok (passed : ob.checkBlockVote su br sender vote = .ok ()) :
    ∃ gen, br.blockGenMessage = some gen ∧ CheckedVote su gen sender vote ob := by
  unfold checkBlockVote at passed
  split at passed
  · cases passed
  rename_i timeoutCount decoded
  split at passed
  · cases passed
  rename_i top ranked
  split at passed
  · cases passed
  rename_i generator
  rw [Decidable.not_not] at generator
  split at passed
  · cases passed
  split at passed
  · cases passed
  rename_i turn
  rw [Decidable.not_not] at turn
  split at passed
  · cases passed
  rename_i ack chosen
  split at passed
  · cases passed
  split at passed
  · cases passed
  rename_i own
  rw [Decidable.not_not] at own
  split at passed
  · cases passed
  split at passed
  · cases passed
  rename_i gen held
  split at passed
  · cases passed
  rename_i same
  rw [Decidable.not_not] at same
  split at passed
  · cases passed
  rename_i valid
  refine ⟨gen, held, same, valid, ?_, timeoutCount, top, ack, decoded, ranked, generator, chosen,
    turn.symm.trans own⟩
  unfold checkObserverSignature at passed
  split at passed
  · cases passed
  rename_i pubhash recovered
  split at passed
  · cases passed
  rename_i sent
  rw [Decidable.not_not] at sent
  rw [recovered, sent]

variable [MessageCodec]

omit [HeaderCodec] in
theorem verifySender_ok {s : Signable} {sig : Signature}
    (passed : ob.verifySender su s sig sender = .ok ()) :
    ob.ledger.cs.observerKeyMap.has sender = true := by
  unfold verifySender at passed
  split at passed
  · cases passed
  split at passed
  · cases passed
  rename_i same
  rw [Decidable.not_not] at same
  split at passed
  · cases passed
  · rename_i known
    rw [same]
    simpa only [Bool.not_eq_true, Bool.not_eq_false'] using known

end Checks

variable [Account Acc] [Event Ev] [Base58] [HashFunction] [Msgpack] [HeaderCodec]
  [AccountCodec Acc] [TxOutCodec] [EventCodec Ev] [FormulatorAccount Acc] [Codec] [MessageCodec]
  [Transaction Acc Ev Tx]

/-- What an observer puts in its own queue: a block vote it has signed, or one that has
waited; never blocks. -/
def Kept (su : Setup Acc Ev Tx) (ob : ObserverNode Acc Ev Tx) : Message Tx → Prop
  | .blockVote msg =>
    (∃ s ∈ ob.signed, su.sign ob.myPublicHash s.digest = .ok msg.blockVote.observerSignature) ∨
      ∃ height br sender, ob.round.blockRoundMap.get height = some br ∧
        br.blockVoteMessageWaitMap.get sender = some msg
  | .blocks _ => False
  | _ => True

/-- One move of an observer that is handling the message `current`. -/
inductive Move (su : Setup Acc Ev Tx) (current : Option (Message Tx)) :
    ObserverNode Acc Ev Tx → ObserverNode Acc Ev Tx → Prop
  | note {ob ob' : ObserverNode Acc Ev Tx} (same : SameCore ob ob') : Move su current ob ob'
  | push {ob : ObserverNode Acc Ev Tx} (item : MessageItem Tx) (kept : ob.Kept su item.message) :
      Move su current ob (ob.push item)
  | sign {ob : ObserverNode Acc Ev Tx} (s : Signable) (other : s.isBlockSign = false) :
      Move su current ob { ob with signed := s :: ob.signed }
  | vote {ob : ObserverNode Acc Ev Tx} {br : BlockRound Acc Ev Tx} {gen : BlockGenMessage Tx}
      (voting : ob.Voting br gen) :
      Move su current ob { ob with
        signed := .blockSign ⟨gen.block.header.hash, gen.generatorSignature⟩ :: ob.signed }
  | wait {ob : ObserverNode Acc Ev Tx} {height : UInt32} {br br' : BlockRound Acc Ev Tx}
      (found : ob.round.blockRoundMap.get height = some br) (same : SameVotes br br')
      (waits : ∀ sender msg, br'.blockVoteMessageWaitMap.get sender = some msg →
        br.blockVoteMessageWaitMap.get sender = some msg ∨ current = some (.blockVote msg)) :
      Move su current ob (ob.putBlockRound height br')
  | tally {ob : ObserverNode Acc Ev Tx} {br : BlockRound Acc Ev Tx} {gen : BlockGenMessage Tx}
      {sender : PublicHash} {msg : BlockVoteMessage} (voting : ob.Voting br gen)
      (observer : ob.ledger.cs.observerKeyMap.has sender = true)
      (same : msg.blockVote.header.hash = gen.block.header.hash)
      (signedBy : su.cn.recoverPublicHash
        (BlockSign.hash ⟨msg.blockVote.header.hash, msg.blockVote.generatorSignature⟩)
        msg.blockVote.observerSignature = .ok sender)
      (heard : current = some (.blockVote msg)) :
      Move su current ob (ob.putBlockRound ob.round.targetHeight
        (br.countVote sender msg.blockVote))
  | accept {ob : ObserverNode Acc Ev Tx} {br : BlockRound Acc Ev Tx} {gen : BlockGenMessage Tx}
      {ack : RoundVoteAck} (ctx : Context Acc Ev)
      (waiting : ob.round.roundState = .blockWaitState)
      (found : ob.round.blockRoundMap.get ob.round.targetHeight = some br)
      (empty : br.blockGenMessage = none)
      (height : gen.block.header.height = ob.round.targetHeight)
      (valid : ob.ledger.store.validateHeader gen.block.header = .ok ())
      (chosen : ob.round.minRoundVoteAck = some ack)
      (signedBy : su.cn.recoverPublicHash gen.block.header.hash gen.generatorSignature =
        .ok ack.formulatorPublicHash) :
      Move su current ob
        ({ ob with round := { ob.round with roundState := .blockVoteState } }.putBlockRound
          ob.round.targetHeight { br with blockGenMessage := some gen, context := some ctx })
  | proceed {ob ob' : ObserverNode Acc Ev Tx} (before : ob.round.roundState ≠ .blockVoteState)
      (after : ob'.round.roundState ≠ .blockVoteState)
      (target : ob'.round.targetHeight = ob.round.targetHeight)
      (entries : ∀ height br', ob'.round.blockRoundMap.get height = some br' →
        ∃ br, ob.round.blockRoundMap.get height = some br ∧ SameVotes br br' ∧
          br'.blockVoteMessageWaitMap = br.blockVoteMessageWaitMap)
      (same : SameCore { ob with round := ob'.round } ob') : Move su current ob ob'
  | turn {ob : ObserverNode Acc Ev Tx} (fails : Nat)
      (behind : ob.round.targetHeight ≠ ob.ledger.store.height + 1) :
      Move su current ob { ob with round := { ob.round with
        roundState := .blockWaitState
        voteFailCount := fails
        targetHeight := ob.ledger.store.height + 1 } }
  | reset {ob : ObserverNode Acc Ev Tx} (resetStat : Bool)
      (free : ob.round.roundState = .blockVoteState →
        ob.round.targetHeight = ob.ledger.store.height + 1 →
          ob.round.blockRoundMap.get ob.round.targetHeight = none) :
      Move su current ob (ob.resetVoteRound resetStat)
  | refuse {ob : ObserverNode Acc Ev Tx} {ledger : Ledger Tx}
      (height : ledger.store.height = ob.ledger.store.height)
      (keys : ledger.cs.observerKeyMap = ob.ledger.cs.observerKeyMap) :
      Move su current ob { ob with ledger := ledger }
  | connectVoted {ob : ObserverNode Acc Ev Tx} {br : BlockRound Acc Ev Tx}
      {gen : BlockGenMessage Tx} {b : Block Tx} {header : Header} {ctx : Context Acc Ev}
      {ledger : Ledger Tx} (voting : ob.Voting br gen) (own : b.header = gen.block.header)
      (quorum : ob.ledger.cs.observerKeyMap.len / 2 + 1 ≤ br.blockVoteMap.len)
      (same : header.hash = b.header.hash)
      (valid : ob.ledger.store.validateHeader header = .ok ())
      (connects : ob.ledger.connectBlockWithContext su.cn b ctx = (.ok (), ledger)) :
      Move su current ob (ob.join b ledger)
  | connectQueued {ob : ObserverNode Acc Ev Tx} {b : Block Tx} {key : Nat} {ledger : Ledger Tx}
      (queued : ob.blockQ.get key = some b)
      (connects : ob.ledger.connectBlock su.cn b none = (.ok (), ledger)) :
      Move su current ob (ob.join b ledger)
  | enqueue {ob : ObserverNode Acc Ev Tx} {b : Block Tx} {list : List (Block Tx)} (key : Nat)
      (heard : current = some (.blocks list)) (listed : b ∈ list) :
      Move su current ob { ob with blockQ := ob.blockQ.put key b }
  | dequeue {ob : ObserverNode Acc Ev Tx} {queue : SortedMap Nat (Block Tx)}
      (fewer : ∀ key b, queue.get key = some b → ob.blockQ.get key = some b) :
      Move su current ob { ob with blockQ := queue }

abbrev Moves (su : Setup Acc Ev Tx) (current : Option (Message Tx)) :
    ObserverNode Acc Ev Tx → ObserverNode Acc Ev Tx → Prop :=
  Relation.ReflTransGen (Move su current)

variable {su : Setup Acc Ev Tx} {amb : Ambient} {current : Option (Message Tx)}
  {ob : ObserverNode Acc Ev Tx}

theorem moves_note {ob' : ObserverNode Acc Ev Tx} (same : SameCore ob ob') :
    Moves su current ob ob' :=
  .single (.note same)

theorem moves_send (s : Sent Tx) : Moves su current ob (ob.send s) :=
  moves_note ⟨rfl, rfl, rfl, rfl, rfl, rfl, rfl, rfl, rfl, rfl⟩

theorem moves_push {item : MessageItem Tx} (kept : ob.Kept su item.message) :
    Moves su current ob (ob.push item) :=
  .single (.push item kept)

theorem moves_signing {s : Signable} (other : s.isBlockSign = false)
    {next : Signature → ObserverNode Acc Ev Tx → ObserverNode Acc Ev Tx}
    (after : ∀ sig, su.sign ob.myPublicHash s.digest = .ok sig →
      Moves su current { ob with signed := s :: ob.signed }
        (next sig { ob with signed := s :: ob.signed })) :
    Moves su current ob (ob.signing su s next) := by
  unfold signing
  split
  · exact .refl
  · rename_i sig made
    exact .head (.sign s other) (after sig made)

variable (target : PublicHash)

theorem moves_sendStatusTo : Moves su current ob (ob.sendStatusTo target) := by
  unfold sendStatusTo
  split
  · exact .refl
  · exact moves_send _

theorem moves_sendRequestBlockTo (height : UInt32) (count : UInt8) :
    Moves su current ob (ob.sendRequestBlockTo target height count) := by
  unfold sendRequestBlockTo
  split
  · exact .refl
  · exact moves_send _

theorem moves_informFormulator (amb : Ambient) (addr : Address) :
    Moves su current ob (ob.informFormulator amb addr) := by
  unfold informFormulator
  dsimp only
  split
  · exact .refl
  · exact moves_send _

theorem moves_castRoundVote (vote : RoundVote) : Moves su current ob (ob.castRoundVote su vote) := by
  refine moves_signing rfl fun sig _ => .trans (moves_push ?_) (moves_send _)
  exact trivial

theorem moves_sendRoundVote : Moves su current ob (ob.sendRoundVote su amb) := by
  unfold sendRoundVote
  split
  · exact .refl
  rename_i top _ _
  refine .trans (moves_informFormulator amb top.address) (.head (.note ?_) (moves_castRoundVote _))
  exact ⟨rfl, rfl, rfl, rfl, rfl, rfl, rfl, rfl, rfl, rfl⟩

theorem moves_sendRoundVoteTo : Moves su current ob (ob.sendRoundVoteTo su amb target) := by
  have reply : ∀ vote, Moves su current ob (ob.signing su (.roundVote vote) fun sig ob =>
      ob.send (.toObserver target (.roundVote ⟨vote, sig⟩))) :=
    fun _ => moves_signing rfl fun sig _ => moves_send _
  unfold sendRoundVoteTo
  split
  · exact .refl
  split
  · split
    · exact .refl
    · split <;> exact reply _
  · split
    · exact .refl
    · exact reply _

theorem moves_sendRoundVoteAck : Moves su current ob (ob.sendRoundVoteAck su amb) := by
  unfold sendRoundVoteAck
  split
  · exact .refl
  · refine moves_signing rfl fun sig _ => .trans (moves_push ?_) (moves_send _)
    exact trivial

theorem moves_sendRoundVoteAckTo : Moves su current ob (ob.sendRoundVoteAckTo su amb target) := by
  unfold sendRoundVoteAckTo
  split
  · exact .refl
  split
  · exact .refl
  · exact moves_signing rfl fun sig _ => moves_send _

section BlockVotes

variable {br : BlockRound Acc Ev Tx} {gen : BlockGenMessage Tx}

variable (voting : ob.Voting br gen)

include voting

theorem moves_signingBlockVote (isReply : Bool)
    {next : BlockVoteMessage → ObserverNode Acc Ev Tx → ObserverNode Acc Ev Tx}
    (after : ∀ msg ob, ob.Kept su (.blockVote msg) → Moves su current ob (next msg ob)) :
    Moves su current ob (ob.signingBlockVote su gen isReply next) := by
  unfold signingBlockVote
  rw [signing]
  split
  · exact .refl
  rename_i observerSignature made
  refine .head (.vote voting) (moves_signing rfl fun sig _ => after _ _ ?_)
  exact .inl ⟨_, List.mem_cons_of_mem _ List.mem_cons_self, made⟩

theorem moves_sendBlockVote : Moves su current ob (ob.sendBlockVote su gen) := by
  exact moves_signingBlockVote voting false fun msg ob kept =>
    .trans (moves_push kept) (moves_send _)

theorem moves_sendBlockVoteTo (target : PublicHash) :
    Moves su current ob (ob.sendBlockVoteTo su gen target) := by
  unfold sendBlockVoteTo
  split
  · exact .refl
  · exact moves_signingBlockVote voting true fun msg ob _ => moves_send _

end BlockVotes

theorem moves_sendBlockGenRequest {height : UInt32} {br : BlockRound Acc Ev Tx}
    (found : ob.round.blockRoundMap.get height = some br) :
    Moves su current ob (ob.sendBlockGenRequest su amb height br).2 := by
  unfold sendBlockGenRequest
  split
  · exact .refl
  dsimp only
  have stamped : Move su current ob
      (ob.putBlockRound height { br with lastBlockGenRequestTime := amb.now }) :=
    .wait found ⟨rfl, rfl, rfl⟩ fun _ _ waiting => .inl waiting
  split
  · exact .single stamped
  · dsimp only
    refine .head stamped (moves_signing rfl fun sig _ => ?_)
    split <;> exact moves_send _

theorem moves_foldl {Item : Type} (f : ObserverNode Acc Ev Tx → Item → ObserverNode Acc Ev Tx)
    (keeps : ObserverNode Acc Ev Tx → Prop) {list : List Item}
    (round : ∀ ob, ∀ item ∈ list, keeps ob → Moves su current ob (f ob item) ∧ keeps (f ob item))
    (start : keeps ob) : Moves su current ob (list.foldl f ob) := by
  induction list generalizing ob with
  | nil => exact .refl
  | cons item list ih =>
    obtain ⟨first, kept⟩ := round ob item (by simp) start
    exact .trans first (ih (fun ob other member => round ob other (by simp [member])) kept)

end ObserverNode

end Fleta.Pof
