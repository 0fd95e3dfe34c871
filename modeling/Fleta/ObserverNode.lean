import Fleta.VoteRound

/-!
# The state of an observer and what it sends

An observer keeps its chain, the round, the blocks and messages it has not handled yet,
and a record of everything it has signed, sent and connected. A signature that cannot be
made leaves the message unsent.
-/

namespace Fleta.Pof

variable {Acc Ev Tx : Type}

/-- The chain an observer runs, and the keys: `sign` is the key of a public hash. -/
structure Setup (Acc Ev Tx : Type) where
  cn : Chain Acc Ev Tx
  sign : PublicHash → Hash256 → Except Err Signature

/-- What an observer reads of its surroundings in one step: the clock, the connected
formulators and the heights they told, the connected observers, the pending block
requests, and the order in which a map is visited. -/
structure Ambient where
  now : UInt64
  formulatorMap : List Address
  formulatorHeight : Address → Option UInt32
  peers : List PublicHash
  requested : UInt32 → Bool
  order : List PublicHash → List PublicHash
  order_perm : ∀ keys, (order keys).Perm keys

/-- A `range` loop over a map. -/
def Ambient.range {Value : Type} (amb : Ambient) (map : SortedMap PublicHash Value) :
    List (PublicHash × Value) :=
  (amb.order (map.eachAll.map Prod.fst)).filterMap fun key =>
    (map.get key).map fun value => (key, value)

variable {Value : Type}

theorem Ambient.mem_range {amb : Ambient} {map : SortedMap PublicHash Value}
    {entry : PublicHash × Value} : entry ∈ amb.range map ↔ map.get entry.1 = some entry.2 := by
  unfold range
  rw [List.mem_filterMap]
  constructor
  · rintro ⟨key, _, found⟩
    rw [Option.map_eq_some_iff] at found
    obtain ⟨value, found, same⟩ := found
    cases same
    exact found
  · intro found
    refine ⟨entry.1, (amb.order_perm _).mem_iff.mpr ?_, by rw [found]; rfl⟩
    rw [← SortedMap.has_iff_key_visited, found]
    rfl

variable (amb : Ambient)

theorem Ambient.range_keys (map : SortedMap PublicHash Value) :
    (amb.range map).map Prod.fst = amb.order (map.eachAll.map Prod.fst) := by
  have visits : ∀ keys : List PublicHash, (∀ key ∈ keys, (map.get key).isSome = true) →
      (keys.filterMap fun key => (map.get key).map fun value => (key, value)).map Prod.fst = keys := by
    intro keys present
    induction keys with
    | nil => rfl
    | cons key keys ih =>
      obtain ⟨value, found⟩ := Option.isSome_iff_exists.mp (present key (by simp))
      rw [List.filterMap_cons, found, Option.map_some]
      exact congrArg (key :: ·) (ih fun other later => present other (by simp [later]))
  refine visits _ fun key listed => ?_
  rw [SortedMap.has_iff_key_visited]
  exact (amb.order_perm _).mem_iff.mp listed

theorem Ambient.range_nodup (map : SortedMap PublicHash Value) :
    ((amb.range map).map Prod.fst).Nodup := by
  rw [amb.range_keys]
  exact (amb.order_perm _).nodup_iff.mpr (SortedMap.each_all_keys_nodup map)

theorem Ambient.length_range (map : SortedMap PublicHash Value) :
    (amb.range map).length = map.len := by
  have keys := congrArg List.length (amb.range_keys map)
  rw [List.length_map, (amb.order_perm _).length_eq, List.length_map,
    SortedMap.length_eachAll] at keys
  exact keys

/-- A queued message with its sender; `packet` tells whether the packet it came in is
kept. -/
structure MessageItem (Tx : Type) where
  publicHash : PublicHash
  message : Message Tx
  packet : Bool

inductive Sent (Tx : Type) where
  | broadcast (m : Message Tx)
  | toObserver (target : PublicHash) (m : Message Tx)
  | toAnyone (m : Message Tx)
  | toFormulator (addr : Address) (m : Message Tx)

/-- `blockQ` holds blocks by their height. `sent`, `signed` and `connected` record what
the observer has done. -/
structure ObserverNode (Acc Ev Tx : Type) where
  ledger : Ledger Tx
  myPublicHash : PublicHash
  round : VoteRound Acc Ev Tx
  roundFirstTime : UInt64
  roundFirstHeight : UInt32
  ignoreMap : SortedMap Address Nat
  blockQ : SortedMap Nat (Block Tx)
  messageQueue : List (MessageItem Tx)
  sent : List (Sent Tx)
  signed : List Signable
  connected : List (Block Tx)
  halted : Bool

namespace ObserverNode

def new (myPublicHash : PublicHash) (ledger : Ledger Tx) : ObserverNode Acc Ev Tx where
  ledger := ledger
  myPublicHash := myPublicHash
  round := .new (ledger.store.height + 1) ledger.cs.maxBlocksPerFormulator
  roundFirstTime := 0
  roundFirstHeight := 0
  ignoreMap := .empty
  blockQ := .empty
  messageQueue := []
  sent := []
  signed := []
  connected := []
  halted := false

def push (item : MessageItem Tx) (ob : ObserverNode Acc Ev Tx) : ObserverNode Acc Ev Tx :=
  { ob with messageQueue := ob.messageQueue ++ [item] }

def send (s : Sent Tx) (ob : ObserverNode Acc Ev Tx) : ObserverNode Acc Ev Tx :=
  { ob with sent := ob.sent ++ [s] }

def halt (ob : ObserverNode Acc Ev Tx) : ObserverNode Acc Ev Tx := { ob with halted := true }

def putBlockRound (height : UInt32) (br : BlockRound Acc Ev Tx) (ob : ObserverNode Acc Ev Tx) :
    ObserverNode Acc Ev Tx :=
  { ob with round := { ob.round with blockRoundMap := ob.round.blockRoundMap.put height br } }

def join (b : Block Tx) (ledger : Ledger Tx) (ob : ObserverNode Acc Ev Tx) :
    ObserverNode Acc Ev Tx :=
  { ob with ledger := ledger, connected := b :: ob.connected }

def adjustFormulatorMap (amb : Ambient) (ob : ObserverNode Acc Ev Tx) : List Address :=
  amb.formulatorMap.filter fun addr => !decide (amb.now.toNat < (ob.ignoreMap.get addr).getD 0)

def resetVoteRound (resetStat : Bool) (ob : ObserverNode Acc Ev Tx) : ObserverNode Acc Ev Tx :=
  { ob with
    round := .new (ob.ledger.store.height + 1) ob.ledger.cs.maxBlocksPerFormulator
    roundFirstTime := if resetStat then 0 else ob.roundFirstTime
    roundFirstHeight := if resetStat then 0 else ob.roundFirstHeight }

variable [HashFunction] [HeaderCodec] [Codec] [MessageCodec] (su : Setup Acc Ev Tx) (amb : Ambient)

/-- Signs and goes on, unless the key fails. -/
def signing (s : Signable) (ob : ObserverNode Acc Ev Tx)
    (next : Signature → ObserverNode Acc Ev Tx → ObserverNode Acc Ev Tx) : ObserverNode Acc Ev Tx :=
  match su.sign ob.myPublicHash s.digest with
  | .error _ => ob
  | .ok sig => next sig { ob with signed := s :: ob.signed }

def statusMessage (ob : ObserverNode Acc Ev Tx) : Message Tx :=
  .status ⟨ob.ledger.store.version, ob.ledger.store.height, ob.ledger.store.lastHash⟩

def sendStatusTo (target : PublicHash) (ob : ObserverNode Acc Ev Tx) : ObserverNode Acc Ev Tx :=
  if target = ob.myPublicHash then ob else ob.send (.toObserver target ob.statusMessage)

def broadcastStatus (ob : ObserverNode Acc Ev Tx) : ObserverNode Acc Ev Tx :=
  ob.send (.broadcast ob.statusMessage)

def sendRequestBlockTo (target : PublicHash) (height : UInt32) (count : UInt8)
    (ob : ObserverNode Acc Ev Tx) : ObserverNode Acc Ev Tx :=
  if target = ob.myPublicHash then ob else ob.send (.toObserver target (.request ⟨height, count⟩))

/-- The round vote of the observer for the first formulator it can reach. -/
def currentVote (top : Rank) (timeoutCount : Nat) (isReply : Bool) (ob : ObserverNode Acc Ev Tx) :
    RoundVote where
  chainID := ob.ledger.store.chainID
  lastHash := ob.ledger.store.lastHash
  targetHeight := ob.ledger.store.height + 1
  timeoutCount := UInt32.ofNat timeoutCount
  formulator := top.address
  formulatorPublicHash := top.publicHash
  timestamp := amb.now
  isReply := isReply

def informFormulator (addr : Address) (ob : ObserverNode Acc Ev Tx) : ObserverNode Acc Ev Tx :=
  let informed := (amb.formulatorHeight addr).any fun height =>
    decide (¬height < ob.ledger.store.height)
  if informed then ob else ob.send (.toFormulator addr ob.statusMessage)

def castRoundVote (vote : RoundVote) (ob : ObserverNode Acc Ev Tx) : ObserverNode Acc Ev Tx :=
  ob.signing su (.roundVote vote) fun sig ob =>
    (ob.push ⟨ob.myPublicHash, .roundVote ⟨vote, sig⟩, false⟩).send
      (.broadcast (.roundVote ⟨vote, sig⟩))

def sendRoundVote (ob : ObserverNode Acc Ev Tx) : ObserverNode Acc Ev Tx :=
  match ob.ledger.cs.rt.topRankInMap (ob.adjustFormulatorMap amb) with
  | .error _ => ob
  | .ok (top, timeoutCount) =>
    let vote := ob.currentVote amb top timeoutCount false
    let ob := ob.informFormulator amb top.address
    { ob with round := { ob.round with voteFailCount := 0 } }.castRoundVote su vote

def sendRoundVoteTo (target : PublicHash) (ob : ObserverNode Acc Ev Tx) : ObserverNode Acc Ev Tx :=
  if target = ob.myPublicHash then ob
  else
    let reply (vote : RoundVote) :=
      ob.signing su (.roundVote vote) fun sig ob =>
        ob.send (.toObserver target (.roundVote ⟨vote, sig⟩))
    if ob.round.roundState = .blockVoteState then
      match ob.round.roundVoteMessageMap.get ob.myPublicHash with
      | none => ob
      | some myMsg =>
        if myMsg.roundVote.targetHeight ≠ ob.ledger.store.height + 1 then
          reply { myMsg.roundVote with
            isReply := true
            timeoutCount := 0
            targetHeight := ob.ledger.store.height + 1
            lastHash := ob.ledger.store.lastHash
            timestamp := amb.now }
        else reply { myMsg.roundVote with isReply := true }
    else
      match ob.ledger.cs.rt.topRankInMap (ob.adjustFormulatorMap amb) with
      | .error _ => ob
      | .ok (top, timeoutCount) => reply (ob.currentVote amb top timeoutCount true)

/-- The vote with the smallest timeout count, and of these the smallest public hash. -/
def minRoundVote (votes : SortedMap PublicHash RoundVoteMessage) :
    Option (PublicHash × RoundVoteMessage) :=
  votes.eachAll.foldl (fun best entry =>
      match best with
      | none => some entry
      | some (pubhash, msg) =>
        if entry.2.roundVote.timeoutCount < msg.roundVote.timeoutCount then some entry
        else some (pubhash, msg)) none

/-- The source panics when there is no vote. -/
def sendRoundVoteAck (ob : ObserverNode Acc Ev Tx) : ObserverNode Acc Ev Tx :=
  match minRoundVote ob.round.roundVoteMessageMap with
  | none => ob
  | some (minPublicHash, msg) =>
    let ack : RoundVoteAck := {
      chainID := msg.roundVote.chainID
      lastHash := msg.roundVote.lastHash
      targetHeight := msg.roundVote.targetHeight
      timeoutCount := msg.roundVote.timeoutCount
      formulator := msg.roundVote.formulator
      formulatorPublicHash := msg.roundVote.formulatorPublicHash
      publicHash := minPublicHash
      timestamp := amb.now
      isReply := false }
    ob.signing su (.roundVoteAck ack) fun sig ob =>
      (ob.push ⟨ob.myPublicHash, .roundVoteAck ⟨ack, sig⟩, false⟩).send
        (.broadcast (.roundVoteAck ⟨ack, sig⟩))

def sendRoundVoteAckTo (target : PublicHash) (ob : ObserverNode Acc Ev Tx) :
    ObserverNode Acc Ev Tx :=
  if target = ob.myPublicHash then ob
  else
    match ob.round.roundVoteAckMessageMap.get ob.myPublicHash with
    | none => ob
    | some myMsg =>
      let ack :=
        if ob.round.roundState = .blockVoteState ∧
            myMsg.roundVoteAck.targetHeight ≠ ob.ledger.store.height + 1 then
          { myMsg.roundVoteAck with
            isReply := true
            timeoutCount := 0
            targetHeight := ob.ledger.store.height + 1
            lastHash := ob.ledger.store.lastHash
            timestamp := amb.now }
        else { myMsg.roundVoteAck with isReply := true }
      ob.signing su (.roundVoteAck ack) fun sig ob =>
        ob.send (.toObserver target (.roundVoteAck ⟨ack, sig⟩))

/-- The block vote for a generated block: the block sign is signed first, then the vote
that carries it. -/
def signingBlockVote (gen : BlockGenMessage Tx) (isReply : Bool) (ob : ObserverNode Acc Ev Tx)
    (next : BlockVoteMessage → ObserverNode Acc Ev Tx → ObserverNode Acc Ev Tx) :
    ObserverNode Acc Ev Tx :=
  ob.signing su (.blockSign ⟨gen.block.header.hash, gen.generatorSignature⟩)
    fun observerSignature ob =>
      let vote : BlockVote := {
        targetHeight := gen.block.header.height
        header := gen.block.header
        generatorSignature := gen.generatorSignature
        observerSignature := observerSignature
        isReply := isReply }
      ob.signing su (.blockVote vote) fun sig ob => next ⟨vote, sig⟩ ob

def sendBlockVote (gen : BlockGenMessage Tx) (ob : ObserverNode Acc Ev Tx) :
    ObserverNode Acc Ev Tx :=
  ob.signingBlockVote su gen false fun msg ob =>
    (ob.push ⟨ob.myPublicHash, .blockVote msg, false⟩).send (.broadcast (.blockVote msg))

def sendBlockVoteTo (gen : BlockGenMessage Tx) (target : PublicHash) (ob : ObserverNode Acc Ev Tx) :
    ObserverNode Acc Ev Tx :=
  if target = ob.myPublicHash then ob
  else ob.signingBlockVote su gen true fun msg ob => ob.send (.toObserver target (.blockVote msg))

/-- `sendBlockGenRequest` for the entry of a height, at most once in a second. It needs the
acknowledged vote of the round. -/
def sendBlockGenRequest (height : UInt32) (br : BlockRound Acc Ev Tx)
    (ob : ObserverNode Acc Ev Tx) : Except Err Unit × ObserverNode Acc Ev Tx :=
  if br.lastBlockGenRequestTime + second > amb.now then (.ok (), ob)
  else
    let ob := ob.putBlockRound height { br with lastBlockGenRequestTime := amb.now }
    match ob.round.minRoundVoteAck with
    | none => (.error .panicked, ob)
    | some ack =>
      let request : BlockGenRequest := {
        chainID := ack.chainID
        lastHash := ack.lastHash
        targetHeight := ack.targetHeight
        timeoutCount := ack.timeoutCount
        formulator := ack.formulator
        formulatorPublicHash := ack.formulatorPublicHash
        publicHash := ack.publicHash
        timestamp := amb.now }
      let voters := (amb.range br.blockVoteMap).map Prod.fst ++
        (amb.range br.blockVoteMessageWaitMap).map Prod.fst
      (.ok (), ob.signing su (.blockGenRequest request) fun sig ob =>
        match voters.head? with
        | some target => ob.send (.toObserver target (.blockGenRequest ⟨request, sig⟩))
        | none => ob.send (.toAnyone (.blockGenRequest ⟨request, sig⟩)))

end ObserverNode

end Fleta.Pof
