import Fleta.RoundDecision

/-!
# Observers that poll each other

Some observers follow the same chain and reach the same formulators. What their votes and
acknowledgements say is then fixed, and so is the one among them whose vote is acknowledged.
What an observer got is not lost: it waits in the queue, is counted, or is not needed any more.
-/

namespace Fleta.Pof

open SortedMap List

variable {Acc Ev Tx : Type}

/-- What the observers that take part have in common: their chain, the formulators they
reach, and the first of these in the rank table with its place. -/
structure Poll where
  members : List PublicHash
  chainID : UInt8
  height : UInt32
  lastHash : Hash256
  cs : Consensus
  connected : List Address
  top : Rank
  timeoutCount : Nat
  distinct : members.Nodup
  observers : ∀ key ∈ members, cs.observerKeyMap.has key = true
  first : cs.rt.topRankInMap connected = .ok (top, timeoutCount)
  fits : timeoutCount < 2 ^ 32

/-- Round votes and their acknowledgements. -/
def Message.Exchanged : Message Tx → Prop
  | .roundVote _ => True
  | .roundVoteAck _ => True
  | _ => False

def Sent.message : Sent Tx → Message Tx
  | .broadcast m => m
  | .toObserver _ m => m
  | .toAnyone m => m
  | .toFormulator _ m => m

namespace Poll

structure Fits (poll : Poll) (chainID : UInt8) (lastHash : Hash256) (targetHeight timeoutCount : UInt32)
    (formulator : Address) (formulatorPublicHash : PublicHash) : Prop where
  chainID : chainID = poll.chainID
  lastHash : lastHash = poll.lastHash
  targetHeight : targetHeight = poll.height + 1
  timeoutCount : timeoutCount = UInt32.ofNat poll.timeoutCount
  formulator : formulator = poll.top.address
  formulatorPublicHash : formulatorPublicHash = poll.top.publicHash

/-- The member whose vote is acknowledged: the one with the smallest public hash. -/
def leader (poll : Poll) : PublicHash :=
  ((poll.members.foldl (fun map key => map.put key ()) (.empty : SortedMap PublicHash Unit)).eachAll.map
    Prod.fst).headD []

def voteQuorum (poll : Poll) : Nat := poll.cs.observerKeyMap.len / 2 + 2

def ackQuorum (poll : Poll) : Nat := poll.cs.observerKeyMap.len / 2 + 1

section From

variable [HashFunction] [Codec] [MessageCodec] (su : Setup Acc Ev Tx)

structure VoteFrom (poll : Poll) (key : PublicHash) (msg : RoundVoteMessage) : Prop where
  member : key ∈ poll.members
  vote : poll.Fits msg.roundVote.chainID msg.roundVote.lastHash msg.roundVote.targetHeight
    msg.roundVote.timeoutCount msg.roundVote.formulator msg.roundVote.formulatorPublicHash
  signer : su.cn.recoverPublicHash (Signable.digest (.roundVote msg.roundVote)) msg.signature = .ok key

structure AckFrom (poll : Poll) (key : PublicHash) (msg : RoundVoteAckMessage) : Prop where
  member : key ∈ poll.members
  ack : poll.Fits msg.roundVoteAck.chainID msg.roundVoteAck.lastHash msg.roundVoteAck.targetHeight
    msg.roundVoteAck.timeoutCount msg.roundVoteAck.formulator msg.roundVoteAck.formulatorPublicHash
  publicHash : msg.roundVoteAck.publicHash = poll.leader
  signer : su.cn.recoverPublicHash (Signable.digest (.roundVoteAck msg.roundVoteAck)) msg.signature =
    .ok key

def From (poll : Poll) (key : PublicHash) : Message Tx → Prop
  | .roundVote msg => poll.VoteFrom su key msg
  | .roundVoteAck msg => poll.AckFrom su key msg
  | _ => False

def Signs (poll : Poll) : Prop :=
  ∀ key ∈ poll.members, ∀ digest, ∃ sig,
    su.sign key digest = .ok sig ∧ su.cn.recoverPublicHash digest sig = .ok key

end From

variable {poll : Poll}

theorem topRankInMap_eq {formulators : List Address}
    (same : ∀ addr, addr ∈ formulators ↔ addr ∈ poll.connected) :
    poll.cs.rt.topRankInMap formulators = .ok (poll.top, poll.timeoutCount) := by
  have contained : (fun entry : Rank × Nat => formulators.contains entry.1.address) =
      fun entry => poll.connected.contains entry.1.address := by
    funext entry
    rw [Bool.eq_iff_iff, contains_iff_mem, contains_iff_mem]
    exact same _
  have first := poll.first
  unfold RankTable.topRankInMap at first ⊢
  rw [contained]
  exact first

theorem topRank_timeoutCount :
    poll.cs.rt.topRank (UInt32.ofNat poll.timeoutCount).toNat = .ok poll.top := by
  have first := poll.first
  unfold RankTable.topRankInMap at first
  split at first
  · cases first
  · rename_i entry found
    obtain rfl : entry = (poll.top, poll.timeoutCount) := Except.ok.inj first
    have listed := mem_zipIdx_iff_getElem?.mp (mem_of_find?_eq_some found)
    have place : (UInt32.ofNat poll.timeoutCount).toNat = poll.timeoutCount :=
      UInt32.toNat_ofNat_of_lt' poll.fits
    unfold RankTable.topRank
    rw [place, listed]

variable {Value : Type}

theorem leader_eq {votes : SortedMap PublicHash Value} {entry : PublicHash × Value}
    (all : ∀ key, (votes.get key).isSome = true ↔ key ∈ poll.members)
    (head : votes.eachAll.head? = some entry) : entry.1 = poll.leader := by
  have listed : ∀ (keys : List PublicHash) (map : SortedMap PublicHash Unit) (key : PublicHash),
      ((keys.foldl (fun map key => map.put key ()) map).get key).isSome = true ↔
        key ∈ keys ∨ (map.get key).isSome = true := by
    intro keys
    induction keys with
    | nil =>
      intro map key
      rw [foldl_nil, mem_nil_iff, false_or]
    | cons other rest ih =>
      intro map key
      rw [foldl_cons, ih, mem_cons, get_put]
      by_cases same : other = key
      · rw [if_pos same]
        simp [same]
      · rw [if_neg same]
        simp [Ne.symm same]
  have keys : votes.eachAll.map Prod.fst = (poll.members.foldl (fun map key => map.put key ())
        (.empty : SortedMap PublicHash Unit)).eachAll.map Prod.fst := by
    apply each_all_keys_eq
    intro key
    rw [Bool.eq_iff_iff, all, listed, get_empty]
    simp
  unfold leader
  rw [← keys, headD_eq_head?_getD, head?_map, head]
  rfl

variable {map : SortedMap PublicHash Value}

theorem keys_subperm (members : ∀ key, (map.get key).isSome = true → key ∈ poll.members) :
    (map.eachAll.map Prod.fst).Subperm poll.members := by
  apply subperm_of_subset (each_all_keys_nodup map)
  intro key visited
  rw [← has_iff_key_visited] at visited
  exact members key visited

theorem len_le (members : ∀ key, (map.get key).isSome = true → key ∈ poll.members) :
    map.len ≤ poll.members.length := by
  have bound := (poll.keys_subperm members).length_le
  rwa [length_map, length_eachAll] at bound

theorem mem_of_full (members : ∀ key, (map.get key).isSome = true → key ∈ poll.members)
    (full : poll.members.length ≤ map.len) {key : PublicHash} (member : key ∈ poll.members) :
    (map.get key).isSome = true := by
  have perm := (poll.keys_subperm members).perm_of_length_le
    (by rwa [length_map, length_eachAll])
  rw [has_iff_key_visited]
  exact perm.mem_iff.mpr member

theorem le_len
    (all : ∀ key ∈ poll.members, (map.get key).isSome = true) : poll.members.length ≤ map.len := by
  have listed : poll.members ⊆ map.eachAll.map Prod.fst := by
    intro key member
    rw [← has_iff_key_visited]
    exact all key member
  have bound := (subperm_of_subset poll.distinct listed).length_le
  rwa [length_map, length_eachAll] at bound

end Poll

namespace ObserverNode

/-- The vote of a member waits in the queue, is counted, or is not needed any more. -/
def HasVote (key : PublicHash) (ob : ObserverNode Acc Ev Tx) : Prop :=
  (∃ item ∈ ob.messageQueue, item.publicHash = key ∧ ∃ msg, item.message = .roundVote msg) ∨
    (ob.round.roundVoteMessageMap.get key).isSome = true ∨ ob.round.roundState ≠ .roundVoteState

/-- So does the acknowledgement, which may also have come too early. -/
def HasAck (key : PublicHash) (ob : ObserverNode Acc Ev Tx) : Prop :=
  (∃ item ∈ ob.messageQueue, item.publicHash = key ∧ ∃ msg, item.message = .roundVoteAck msg) ∨
    (ob.round.roundVoteAckMessageMap.get key).isSome = true ∨
    ob.round.roundState = .blockWaitState ∨
    ob.round.roundState = .roundVoteState ∧
      (ob.round.roundVoteAckMessageWaitMap.get key).isSome = true

def Reaches (poll : Poll) (amb : Ambient) (ob : ObserverNode Acc Ev Tx) : Prop :=
  ∀ addr, addr ∈ ob.adjustFormulatorMap amb ↔ addr ∈ poll.connected

/-- Nothing that an observer has got before is lost, and nothing it sent is taken back. What
it sends to all it has itself. -/
structure Advances (key : PublicHash) (ob ob' : ObserverNode Acc Ev Tx) : Prop where
  votes : ∀ other, ob.HasVote other → ob'.HasVote other
  acks : ∀ other, ob.HasAck other → ob'.HasAck other
  sent : ∀ s ∈ ob.sent, s ∈ ob'.sent
  ownVote : ∀ msg, .broadcast (.roundVote msg) ∈ ob'.sent →
    .broadcast (.roundVote msg) ∈ ob.sent ∨ ob'.HasVote key
  ownAck : ∀ msg, .broadcast (.roundVoteAck msg) ∈ ob'.sent →
    .broadcast (.roundVoteAck msg) ∈ ob.sent ∨ ob'.HasAck key

theorem Advances.trans {key : PublicHash} {ob ob' ob'' : ObserverNode Acc Ev Tx}
    (first : Advances key ob ob') (second : Advances key ob' ob'') : Advances key ob ob'' where
  votes other has := second.votes other (first.votes other has)
  acks other has := second.acks other (first.acks other has)
  sent s listed := second.sent s (first.sent s listed)
  ownVote msg listed := by
    rcases second.ownVote msg listed with before | has
    · exact (first.ownVote msg before).imp_right (second.votes key)
    · exact .inr has
  ownAck msg listed := by
    rcases second.ownAck msg listed with before | has
    · exact (first.ownAck msg before).imp_right (second.acks key)
    · exact .inr has

theorem Advances.of_silent {key : PublicHash} {ob ob' : ObserverNode Acc Ev Tx}
    (votes : ∀ other, ob.HasVote other → ob'.HasVote other)
    (acks : ∀ other, ob.HasAck other → ob'.HasAck other) (silent : ob'.sent = ob.sent) :
    Advances key ob ob' := by
  refine ⟨votes, acks, ?_, ?_, ?_⟩
  · rw [silent]
    exact fun _ listed => listed
  · rw [silent]
    exact fun _ listed => .inl listed
  · rw [silent]
    exact fun _ listed => .inl listed

def withVote (sender : PublicHash) (msg : RoundVoteMessage) (ob : ObserverNode Acc Ev Tx) :
    ObserverNode Acc Ev Tx :=
  { ob with round := { ob.round with
    roundVoteMessageMap := ob.round.roundVoteMessageMap.put sender msg } }

variable (key : PublicHash) (ob : ObserverNode Acc Ev Tx) (sender : PublicHash)

theorem withVote_advances (msg : RoundVoteMessage) :
    Advances key ob (ob.withVote sender msg) ∧
      ((ob.withVote sender msg).round.roundVoteMessageMap.get sender).isSome = true := by
  refine ⟨.of_silent ?_ (fun _ has => has) rfl, ?_⟩
  · intro key has
    rcases has with queued | counted | passed
    · exact .inl queued
    · exact .inr (.inl (isSome_get_put counted sender msg))
    · exact .inr (.inr passed)
  · change ((ob.round.roundVoteMessageMap.put sender msg).get sender).isSome = true
    rw [get_put_self]
    rfl

def withAck (sender : PublicHash) (msg : RoundVoteAckMessage) (ob : ObserverNode Acc Ev Tx) :
    ObserverNode Acc Ev Tx :=
  { ob with round := { ob.round with
    roundVoteAckMessageMap := ob.round.roundVoteAckMessageMap.put sender msg } }

variable (msg : RoundVoteAckMessage)

theorem withAck_advances :
    Advances key ob (ob.withAck sender msg) ∧
      ((ob.withAck sender msg).round.roundVoteAckMessageMap.get sender).isSome = true := by
  refine ⟨.of_silent (fun _ has => has) ?_ rfl, ?_⟩
  · intro key has
    rcases has with queued | counted | passed
    · exact .inl queued
    · exact .inr (.inl (isSome_get_put counted sender msg))
    · exact .inr (.inr passed)
  · change ((ob.round.roundVoteAckMessageMap.put sender msg).get sender).isSome = true
    rw [get_put_self]
    rfl

def withWaiting (sender : PublicHash) (msg : RoundVoteAckMessage) (ob : ObserverNode Acc Ev Tx) :
    ObserverNode Acc Ev Tx :=
  { ob with round := { ob.round with
    roundVoteAckMessageWaitMap := ob.round.roundVoteAckMessageWaitMap.put sender msg } }

theorem withWaiting_advances (voting : ob.round.roundState = .roundVoteState) :
    Advances key ob (ob.withWaiting sender msg) ∧ (ob.withWaiting sender msg).HasAck sender := by
  refine ⟨.of_silent (fun _ has => has) ?_ rfl, .inr (.inr (.inr ⟨voting, ?_⟩))⟩
  · intro key has
    rcases has with queued | counted | passed | ⟨_, early⟩
    · exact .inl queued
    · exact .inr (.inl counted)
    · exact .inr (.inr (.inl passed))
    · exact .inr (.inr (.inr ⟨voting, isSome_get_put early sender msg⟩))
  · change ((ob.round.roundVoteAckMessageWaitMap.put sender msg).get sender).isSome = true
    rw [get_put_self]
    rfl

theorem keepTurn_idle {map : SortedMap UInt32 (BlockRound Acc Ev Tx)}
    (idle : ∀ height br, map.get height = some br → br.blockGenMessageWait = none)
    {bound height : UInt32} {formulator : Address} {br : BlockRound Acc Ev Tx}
    (found : (keepTurn bound formulator map).get height = some br) :
    br.blockGenMessageWait = none := by
  rw [keepTurn_get, Option.bind_eq_some_iff] at found
  obtain ⟨old, held, kept⟩ := found
  split at kept
  · cases kept
  · cases kept
    rw [idle height old held]
    rfl

theorem foldl_push {Item : Type} (f : Item → MessageItem Tx) (list : List Item)
    (ob : ObserverNode Acc Ev Tx) :
    list.foldl (fun ob item => ob.push (f item)) ob =
      { ob with messageQueue := ob.messageQueue ++ list.map f } := by
  induction list generalizing ob with
  | nil => rw [foldl_nil, map_nil, append_nil]
  | cons item rest ih =>
    rw [foldl_cons, ih, push, map_cons, append_assoc, singleton_append]

theorem minRoundVote_same {votes : SortedMap PublicHash RoundVoteMessage} {timeoutCount : UInt32}
    (same : ∀ key msg, votes.get key = some msg → msg.roundVote.timeoutCount = timeoutCount) :
    minRoundVote votes = votes.eachAll.head? := by
  have counts : ∀ entry ∈ votes.eachAll, entry.2.roundVote.timeoutCount = timeoutCount := by
    intro entry listed
    exact same entry.1 entry.2 ((mem_eachAll _ _ _).mp listed)
  unfold minRoundVote
  generalize votes.eachAll = entries at counts ⊢
  cases entries with
  | nil => rfl
  | cons best rest =>
    rw [foldl_cons, head?_cons]
    have first := counts best mem_cons_self
    replace counts := fun entry listed => counts entry (mem_cons_of_mem best listed)
    induction rest with
    | nil => rfl
    | cons entry rest ih =>
      have smaller : ¬entry.2.roundVote.timeoutCount < best.2.roundVote.timeoutCount := by
        rw [counts entry mem_cons_self, first]
        exact UInt32.lt_irrefl _
      rw [foldl_cons]
      dsimp only at ih ⊢
      rw [if_neg smaller]
      exact ih fun other listed => counts other (mem_cons_of_mem entry listed)

def ackOf (now : UInt64) (publicHash : PublicHash) (vote : RoundVote) : RoundVoteAck where
  chainID := vote.chainID
  lastHash := vote.lastHash
  targetHeight := vote.targetHeight
  timeoutCount := vote.timeoutCount
  formulator := vote.formulator
  formulatorPublicHash := vote.formulatorPublicHash
  publicHash := publicHash
  timestamp := now
  isReply := false

end ObserverNode

end Fleta.Pof
