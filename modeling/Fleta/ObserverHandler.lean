import Fleta.ObserverNode

/-!
# The message handler and the timers of an observer

`handleObserverMessage` with every kind of message, and the three timers of `Run`. A
handler returns the error of the source and the observer afterwards; the error
`panicked` is a panic, after which the observer does nothing any more.
-/

namespace Fleta.Pof

variable {Acc Ev Tx : Type}

namespace ObserverNode

abbrev Handled (Acc Ev Tx : Type) := Except Err Unit × ObserverNode Acc Ev Tx

section Check

variable [HashFunction] [HeaderCodec] [Codec] [MessageCodec] (su : Setup Acc Ev Tx)

def verifySender (s : Signable) (sig : Signature) (sender : PublicHash)
    (ob : ObserverNode Acc Ev Tx) : Except Err Unit :=
  match su.cn.recoverPublicHash s.digest sig with
  | .error err => .error err
  | .ok obkey =>
    if sender ≠ obkey then .error .invalidPublicHash
    else if !ob.ledger.cs.observerKeyMap.has obkey then .error .invalidObserverKey
    else .ok ()

/-- A round vote and its acknowledgement must fit the chain and the rank table. -/
def checkVote (chainID : UInt8) (lastHash : Hash256) (timeoutCount : UInt32) (formulator : Address)
    (formulatorPublicHash : PublicHash) (ob : ObserverNode Acc Ev Tx) : Except Err Unit :=
  if chainID ≠ ob.ledger.store.chainID then .error .invalidVote
  else if lastHash ≠ ob.ledger.store.lastHash then .error .invalidVote
  else
    match ob.ledger.cs.rt.topRank timeoutCount.toNat with
    | .error err => .error err
    | .ok top =>
      if formulator ≠ top.address then .error .invalidVote
      else if formulatorPublicHash ≠ top.publicHash then .error .invalidVote
      else .ok ()

/-- A vote for a lower height is answered with the status. -/
def answerOld (targetHeight : UInt32) (isReply : Bool) (sender : PublicHash)
    (ob : ObserverNode Acc Ev Tx) : ObserverNode Acc Ev Tx :=
  if targetHeight < ob.round.targetHeight ∧ !isReply ∧ sender ≠ ob.myPublicHash then
    ob.sendStatusTo sender
  else ob

/-- An observer that has voted for the block repeats its block vote to the sender. -/
def answerBlockVote (targetHeight : UInt32) (sender : PublicHash) (ob : ObserverNode Acc Ev Tx) :
    Handled Acc Ev Tx :=
  if ob.round.roundState = .blockVoteState then
    match ob.round.blockRoundMap.get targetHeight with
    | none => (.ok (), ob)
    | some br =>
      match br.blockGenMessage with
      | none => (.error .panicked, ob)
      | some gen => (.ok (), ob.sendBlockVoteTo su gen sender)
  else (.ok (), ob)

end Check

section RoundVote

variable [HashFunction] [HeaderCodec] [Codec] [MessageCodec] (su : Setup Acc Ev Tx) (amb : Ambient)

/-- The majority of the round votes is reached: the observer acknowledges the smallest
one, and takes up the acknowledgements that came too early. -/
def enterRoundVoteAck (ob : ObserverNode Acc Ev Tx) : ObserverNode Acc Ev Tx :=
  let ob := { ob with round := { ob.round with roundState := .roundVoteAckState } }
  let ob :=
    if ob.roundFirstTime = 0 then
      { ob with roundFirstTime := amb.now, roundFirstHeight := ob.ledger.store.height }
    else ob
  (amb.range ob.round.roundVoteAckMessageWaitMap).foldl
    (fun ob entry => ob.push ⟨entry.1, .roundVoteAck entry.2, false⟩) (ob.sendRoundVoteAck su amb)

/-- A vote that is not itself a reply is answered with the own one. -/
def replyRoundVote (sender : PublicHash) (isReply : Bool) (ob : ObserverNode Acc Ev Tx) :
    ObserverNode Acc Ev Tx :=
  if !isReply ∧ sender ≠ ob.myPublicHash then ob.sendRoundVoteTo su amb sender else ob

def countRoundVotes (ob : ObserverNode Acc Ev Tx) : Handled Acc Ev Tx :=
  if ob.round.roundVoteMessageMap.len ≥ ob.ledger.cs.observerKeyMap.len / 2 + 2 then
    (.ok (), ob.enterRoundVoteAck su amb)
  else (.ok (), ob)

def applyRoundVote (sender : PublicHash) (msg : RoundVoteMessage) (ob : ObserverNode Acc Ev Tx) :
    Handled Acc Ev Tx :=
  if (ob.round.roundVoteMessageMap.get sender).any fun old =>
      decide (msg.roundVote.timestamp ≤ old.roundVote.timestamp) then
    (.error .alreadyVoted, ob.replyRoundVote su amb sender msg.roundVote.isReply)
  else
    let ob := { ob with round := { ob.round with
      roundVoteMessageMap := ob.round.roundVoteMessageMap.put sender msg } }
    (ob.replyRoundVote su amb sender msg.roundVote.isReply).countRoundVotes su amb

def handleRoundVote (sender : PublicHash) (msg : RoundVoteMessage) (ob : ObserverNode Acc Ev Tx) :
    Handled Acc Ev Tx :=
  let vote := msg.roundVote
  match ob.verifySender su (.roundVote vote) msg.signature sender with
  | .error err => (.error err, ob)
  | .ok _ =>
    if vote.targetHeight ≠ ob.round.targetHeight then
      (.error .invalidVote, ob.answerOld vote.targetHeight vote.isReply sender)
    else
      match ob.checkVote vote.chainID vote.lastHash vote.timeoutCount vote.formulator
          vote.formulatorPublicHash with
      | .error err => (.error err, ob)
      | .ok _ =>
        if ob.round.roundState = .roundVoteState then ob.applyRoundVote su amb sender msg
        else if !vote.isReply ∧ sender ≠ ob.myPublicHash then
          match ob.answerBlockVote su vote.targetHeight sender with
          | (.error err, ob) => (.error err, ob)
          | (.ok _, ob) => (.error .invalidRoundState, ob.sendRoundVoteTo su amb sender)
        else (.error .invalidRoundState, ob)

end RoundVote

section RoundVoteAck

/-- The first acknowledgement at which both its timeout count and its public hash have
been counted often enough. -/
def chooseMin (quorum : Nat) : List RoundVoteAck → List RoundVoteAck → Option RoundVoteAck
  | _, [] => none
  | seen, vt :: rest =>
    if (vt :: seen).countP (·.timeoutCount == vt.timeoutCount) ≥ quorum ∧
        (vt :: seen).countP (·.publicHash == vt.publicHash) ≥ quorum then some vt
    else chooseMin quorum (vt :: seen) rest

/-- The entries of the round that the formulator may still fill; a waiting block of
another formulator is dropped. -/
def keepTurn (bound : UInt32) (formulator : Address)
    (map : SortedMap UInt32 (BlockRound Acc Ev Tx)) : SortedMap UInt32 (BlockRound Acc Ev Tx) :=
  map.eachAll.foldl (fun map entry =>
      if entry.1 ≥ bound then map.delete entry.1
      else map.put entry.1 { entry.2 with
        blockGenMessageWait := entry.2.blockGenMessageWait.filter fun gen =>
          gen.block.header.generator == formulator }) map

/-- A block that waits for this round is handled next. -/
def takeWaiting (formulator : Address) (ob : ObserverNode Acc Ev Tx) : ObserverNode Acc Ev Tx :=
  match ob.round.blockRoundMap.get ob.round.targetHeight with
  | none => ob
  | some br =>
    match br.blockGenMessageWait, br.blockGenMessage with
    | some wait, none =>
      let ob := ob.putBlockRound ob.round.targetHeight { br with blockGenMessageWait := none }
      if wait.block.header.generator = formulator then ob.push ⟨[], .blockGen wait, false⟩
      else ob
    | _, _ => ob

/-- The acknowledged vote of the majority decides who makes the next blocks, and how many
of its turn are left. -/
def chooseFormulator (ack : RoundVoteAck) (ob : ObserverNode Acc Ev Tx) : ObserverNode Acc Ev Tx :=
  let cs := ob.ledger.cs
  let remainBlocks :=
    if ack.timeoutCount = 0 then cs.maxBlocksPerFormulator - cs.blocksBySameFormulator
    else cs.maxBlocksPerFormulator
  { ob with round := { ob.round with
    roundState := .blockWaitState
    minRoundVoteAck := some ack
    voteFailCount := 0
    blockRoundMap :=
      keepTurn (ob.round.targetHeight + remainBlocks) ack.formulator ob.round.blockRoundMap } }

def requestBlocks (ack : RoundVoteAck) (ob : ObserverNode Acc Ev Tx) : ObserverNode Acc Ev Tx :=
  if ack.publicHash = ob.myPublicHash then
    ob.send (.toFormulator ack.formulator (.blockReq {
      prevHash := ack.lastHash
      targetHeight := ack.targetHeight
      timeoutCount := ack.timeoutCount
      formulator := ack.formulator
      formulatorPublicHash := ack.formulatorPublicHash }))
  else ob

def enterBlockWait (ack : RoundVoteAck) (ob : ObserverNode Acc Ev Tx) : ObserverNode Acc Ev Tx :=
  ((ob.chooseFormulator ack).requestBlocks ack).takeWaiting ack.formulator

variable [HashFunction] [HeaderCodec] [Codec] [MessageCodec] (su : Setup Acc Ev Tx) (amb : Ambient)

def replyRoundVoteAck (sender : PublicHash) (isReply : Bool) (ob : ObserverNode Acc Ev Tx) :
    ObserverNode Acc Ev Tx :=
  if !isReply ∧ sender ≠ ob.myPublicHash then ob.sendRoundVoteAckTo su amb sender else ob

def countRoundVoteAcks (ob : ObserverNode Acc Ev Tx) : Handled Acc Ev Tx :=
  let quorum := ob.ledger.cs.observerKeyMap.len / 2 + 1
  if ob.round.roundVoteAckMessageMap.len ≥ quorum then
    match chooseMin quorum []
        ((amb.range ob.round.roundVoteAckMessageMap).map fun entry => entry.2.roundVoteAck) with
    | none => (.ok (), ob)
    | some ack => (.ok (), ob.enterBlockWait ack)
  else (.ok (), ob)

def applyRoundVoteAck (sender : PublicHash) (msg : RoundVoteAckMessage)
    (ob : ObserverNode Acc Ev Tx) : Handled Acc Ev Tx :=
  if (ob.round.roundVoteAckMessageMap.get sender).any fun old =>
      decide (msg.roundVoteAck.timestamp ≤ old.roundVoteAck.timestamp) then
    (.error .alreadyVoted,
      if !msg.roundVoteAck.isReply then ob.sendRoundVoteAckTo su amb sender else ob)
  else
    let ob := { ob with round := { ob.round with
      roundVoteAckMessageMap := ob.round.roundVoteAckMessageMap.put sender msg } }
    (ob.replyRoundVoteAck su amb sender msg.roundVoteAck.isReply).countRoundVoteAcks amb

def handleRoundVoteAck (sender : PublicHash) (msg : RoundVoteAckMessage)
    (ob : ObserverNode Acc Ev Tx) : Handled Acc Ev Tx :=
  let ack := msg.roundVoteAck
  match ob.verifySender su (.roundVoteAck ack) msg.signature sender with
  | .error err => (.error err, ob)
  | .ok _ =>
    if ack.targetHeight ≠ ob.round.targetHeight then
      (.error .invalidVote, ob.answerOld ack.targetHeight ack.isReply sender)
    else
      match ob.checkVote ack.chainID ack.lastHash ack.timeoutCount ack.formulator
          ack.formulatorPublicHash with
      | .error err => (.error err, ob)
      | .ok _ =>
        if ob.round.roundState = .roundVoteAckState then ob.applyRoundVoteAck su amb sender msg
        else if ob.round.roundState < .roundVoteAckState then
          (.error .invalidRoundState, { ob with round := { ob.round with
            roundVoteAckMessageWaitMap := ob.round.roundVoteAckMessageWaitMap.put sender msg } })
        else if !ack.isReply ∧ sender ≠ ob.myPublicHash then
          match ob.answerBlockVote su ack.targetHeight sender with
          | (.error err, ob) => (.error err, ob)
          | (.ok _, ob) => (.error .invalidRoundState, ob.sendRoundVoteAckTo su amb sender)
        else (.error .invalidRoundState, ob)

end RoundVoteAck

section BlockGen

/-- The observer farthest from the one that acknowledged, by the first eight bytes of the
public hashes. -/
def farthest (base : PublicHash) (ids : List PublicHash) : Option PublicHash :=
  let value (id : PublicHash) := ByteOrder.fromLittleEndian (id.take 8)
  (ids.foldl (fun best id =>
      if id = base then best
      else
        let diff := if value base > value id then value base - value id else value id - value base
        if best.1 < diff then (diff, some id) else best)
    ((0 : Nat), (none : Option PublicHash))).2

/-- A block is passed on by the observer that asked for it, and by the farthest one to
the next formulator. -/
def forwardBlockGen (amb : Ambient) (msg : BlockGenMessage Tx) (packet : Bool)
    (ob : ObserverNode Acc Ev Tx) : Handled Acc Ev Tx :=
  match ob.round.minRoundVoteAck with
  | none => (.ok (), ob)
  | some ack =>
    if !packet then (.ok (), ob)
    else if ack.publicHash = ob.myPublicHash then (.ok (), ob.send (.broadcast (.blockGen msg)))
    else if farthest ack.publicHash (amb.peers ++ [ob.myPublicHash]) = some ob.myPublicHash then
      let adjustMap := (ob.adjustFormulatorMap amb).filter (· != ack.formulator)
      if adjustMap = [] then (.ok (), ob)
      else
        match ob.ledger.cs.rt.topRankInMap adjustMap with
        | .error err => (.error err, ob)
        | .ok (nextTop, _) => (.ok (), ob.send (.toFormulator nextTop.address (.blockGen msg)))
    else (.ok (), ob)

variable [HashFunction] [HeaderCodec] [Codec] (su : Setup Acc Ev Tx) (amb : Ambient)

def checkBlockGen (br : BlockRound Acc Ev Tx) (msg : BlockGenMessage Tx)
    (ob : ObserverNode Acc Ev Tx) : Except Err Unit :=
  let header := msg.block.header
  match Consensus.decodeConsensusData header.consensusData with
  | .error err => .error err
  | .ok timeoutCount =>
    match ob.ledger.cs.rt.topRank timeoutCount.toNat with
    | .error err => .error err
    | .ok top =>
      if header.generator ≠ top.address then .error .invalidVote
      else
        match ob.round.minRoundVoteAck with
        | none => .error .panicked
        | some ack =>
          if header.generator ≠ ack.formulator then .error .invalidVote
          else if br.blockGenMessageWait.any fun wait =>
              header.hash != wait.block.header.hash then .error .foundForkedBlockGen
          else
            match su.cn.recoverPublicHash header.hash msg.generatorSignature with
            | .error err => .error err
            | .ok signer =>
              if signer ≠ top.publicHash then .error .invalidTopSignature
              else if signer ≠ ack.formulatorPublicHash then .error .invalidVote
              else ob.ledger.store.validateHeader header

variable [Account Acc] [Event Ev] [Base58] [Msgpack] [AccountCodec Acc] [TxOutCodec]
  [EventCodec Ev] [Transaction Acc Ev Tx]

/-- The block runs on a fresh context, which must have the hash of the header. -/
def executeBlockGen (msg : BlockGenMessage Tx) (ob : ObserverNode Acc Ev Tx) :
    Except Err (Context Acc Ev) :=
  if msg.block.header.timestamp > amb.now + 10 * second then .error .invalidVote
  else
    match su.cn.executeBlockOnContext ob.ledger.store.chainID msg.block none
        (Context.new ob.ledger.store.loader) with
    | (.error err, _) => .error err
    | (.ok _, ctx) =>
      let (contextHash, ctx) := ctx.hash
      if msg.block.header.contextHash ≠ contextHash then .error .invalidContextHash else .ok ctx

variable [MessageCodec]

def acceptBlockGen (br : BlockRound Acc Ev Tx) (msg : BlockGenMessage Tx) (ctx : Context Acc Ev)
    (ob : ObserverNode Acc Ev Tx) : ObserverNode Acc Ev Tx :=
  let ob := { ob with round := { ob.round with roundState := .blockVoteState } }
  let ob := ob.putBlockRound msg.block.header.height
    { br with blockGenMessage := some msg, context := some ctx }
  (amb.range br.blockVoteMessageWaitMap).foldl
    (fun ob entry => ob.push ⟨entry.1, .blockVote entry.2, false⟩) (ob.sendBlockVote su msg)

def handleBlockGen (msg : BlockGenMessage Tx) (packet : Bool) (ob : ObserverNode Acc Ev Tx) :
    Handled Acc Ev Tx :=
  let height := msg.block.header.height
  match ob.round.blockRoundMap.get height with
  | none => (.error .invalidVote, ob)
  | some br =>
    if br.blockGenMessage.isSome then (.error .invalidVote, ob)
    else
      match ob.forwardBlockGen amb msg packet with
      | (.error err, ob) => (.error err, ob)
      | (.ok _, ob) =>
        let waiting := ob.putBlockRound height { br with blockGenMessageWait := some msg }
        if height ≠ ob.round.targetHeight then
          (.error .invalidVote, if height > ob.round.targetHeight then waiting else ob)
        else if ob.round.roundState ≠ .blockWaitState then
          (.error .invalidVote,
            if ob.round.roundState < .blockWaitState then waiting else ob)
        else
          match ob.checkBlockGen su br msg with
          | .error err => (.error err, ob)
          | .ok _ =>
            match ob.executeBlockGen su amb msg with
            | .error err => (.error err, ob)
            | .ok ctx => (.ok (), ob.acceptBlockGen su amb br msg ctx)

end BlockGen

section BlockVote

variable [HashFunction] [HeaderCodec] [Codec] (su : Setup Acc Ev Tx) (amb : Ambient)

/-- The observer signature is checked against the generator signature in the vote. -/
def checkObserverSignature (sender : PublicHash) (vote : BlockVote) : Except Err Unit :=
  match su.cn.recoverPublicHash (BlockSign.hash ⟨vote.header.hash, vote.generatorSignature⟩)
      vote.observerSignature with
  | .error err => .error err
  | .ok pubhash => if sender ≠ pubhash then .error .invalidVote else .ok ()

/-- The checks of a block vote for the block the observer has voted for. -/
def checkBlockVote (br : BlockRound Acc Ev Tx) (sender : PublicHash) (vote : BlockVote)
    (ob : ObserverNode Acc Ev Tx) : Except Err Unit :=
  match Consensus.decodeConsensusData vote.header.consensusData with
  | .error err => .error err
  | .ok timeoutCount =>
    match ob.ledger.cs.rt.topRank timeoutCount.toNat with
    | .error err => .error err
    | .ok top =>
      if vote.header.generator ≠ top.address then .error .invalidVote
      else
        match su.cn.recoverPublicHash vote.header.hash vote.generatorSignature with
        | .error err => .error err
        | .ok signer =>
          if signer ≠ top.publicHash then .error .invalidTopSignature
          else
            match ob.round.minRoundVoteAck with
            | none => .error .panicked
            | some ack =>
              if vote.header.generator ≠ ack.formulator then .error .invalidVote
              else if signer ≠ ack.formulatorPublicHash then .error .invalidVote
              else if vote.header.prevHash ≠ ob.ledger.store.lastHash then
                .error .invalidVote
              else
                match br.blockGenMessage with
                | none => .error .panicked
                | some gen =>
                  if vote.header.hash ≠ gen.block.header.hash then .error .invalidVote
                  else
                    match ob.ledger.store.validateHeader vote.header with
                    | .error err => .error err
                    | .ok _ => checkObserverSignature su sender vote

/-- The block with the collected signatures, in the order in which the map is visited. -/
def assemble (br : BlockRound Acc Ev Tx) (gen : BlockGenMessage Tx) : Block Tx :=
  { gen.block with
    signatures := gen.generatorSignature ::
      (amb.range br.blockVoteMap).map fun entry => entry.2.observerSignature }

variable [Account Acc] [Event Ev] [Base58] [Msgpack] [AccountCodec Acc] [TxOutCodec]
  [EventCodec Ev] [FormulatorAccount Acc] [MessageCodec]

def announceBlock (ack : RoundVoteAck) (b : Block Tx) (vote : BlockVote) (sigs : List Signature)
    (adjustMap : List Address) (nextTop : Option Address) (ob : ObserverNode Acc Ev Tx) :
    ObserverNode Acc Ev Tx :=
  if ack.publicHash = ob.myPublicHash then
    let nm : Message Tx := .blockObSign {
      targetHeight := vote.header.height
      blockSign := ⟨vote.header.hash, vote.generatorSignature⟩
      observerSignatures := sigs }
    let ob := ob.send (.toFormulator ack.formulator nm)
    match nextTop with
    | none => ob
    | some addr => ob.send (.toFormulator addr nm)
  else
    let rest := adjustMap.filter fun addr => some addr != nextTop
    match ob.ledger.cs.rt.ranksInMap rest 3 with
    | .error _ => ob
    | .ok ranks =>
      ranks.foldl (fun ob r => ob.send (.toFormulator r.address
          (.status ⟨b.header.version, b.header.height, vote.header.hash⟩))) ob

/-- The next round: the turn of the formulator goes on, or a new vote begins. -/
def nextRound (ack : RoundVoteAck) (ob : ObserverNode Acc Ev Tx) : Handled Acc Ev Tx :=
  let nextHeight := ob.round.targetHeight + 1
  match ob.ledger.cs.rt.topRank 0 with
  | .error err => (.error err, ob)
  | .ok top =>
    match ob.round.blockRoundMap.get nextHeight with
    | none => (.ok (), ob.resetVoteRound false)
    | some brNext =>
      if top.address = ack.formulator then
        let ob := { ob with round := { ob.round with
          roundState := .blockWaitState
          voteFailCount := 0
          targetHeight := nextHeight } }
        match brNext.blockGenMessageWait, brNext.blockGenMessage with
        | some wait, none => (.ok (), ob.push ⟨[], .blockGen wait, false⟩)
        | _, some _ => ob.sendBlockGenRequest su amb nextHeight brNext
        | none, none => (.ok (), ob)
      else (.ok (), ob.resetVoteRound false)

def nextFormulators (ack : RoundVoteAck) (ob : ObserverNode Acc Ev Tx) :
    Except Err (List Address × Option Address) :=
  let adjustMap := (ob.adjustFormulatorMap amb).filter (· != ack.formulator)
  if adjustMap = [] then .ok ([], none)
  else
    match ob.ledger.cs.rt.topRankInMap adjustMap with
    | .error err => .error err
    | .ok (r, _) => .ok (adjustMap, some r.address)

def afterConnect (ack : RoundVoteAck) (b : Block Tx) (vote : BlockVote)
    (ob : ObserverNode Acc Ev Tx) : Handled Acc Ev Tx :=
  let ob := { ob.broadcastStatus with ignoreMap := ob.ignoreMap.delete ack.formulator }
  match ob.nextFormulators amb ack with
  | .error err => (.error err, ob)
  | .ok (adjustMap, nextTop) =>
    (ob.announceBlock ack b vote (b.signatures.drop 1) adjustMap nextTop).nextRound su amb ack

/-- A quorum has voted: the observer assembles the block and connects it with the context
of the entry, which the attempt changes. -/
def connectVoted (br : BlockRound Acc Ev Tx) (vote : BlockVote) (ob : ObserverNode Acc Ev Tx) :
    Handled Acc Ev Tx :=
  match br.blockGenMessage, br.context, ob.round.minRoundVoteAck with
  | some gen, some ctx, some ack =>
    let b := assemble amb br gen
    let spent := ob.putBlockRound vote.header.height
      (br.setContext (ob.ledger.spentContext su.cn b ctx))
    match ob.ledger.connectBlockWithContext su.cn b ctx with
    | (.error err, ledger) => (.error err, { spent with ledger := ledger })
    | (.ok _, ledger) => (spent.join b ledger).afterConnect su amb ack b vote
  | _, _, _ => (.error .panicked, ob)

def replyBlockVote (gen : BlockGenMessage Tx) (sender : PublicHash) (isReply : Bool)
    (ob : ObserverNode Acc Ev Tx) : ObserverNode Acc Ev Tx :=
  if !isReply ∧ sender ≠ ob.myPublicHash then ob.sendBlockVoteTo su gen sender else ob

def countBlockVotes (br : BlockRound Acc Ev Tx) (vote : BlockVote) (ob : ObserverNode Acc Ev Tx) :
    Handled Acc Ev Tx :=
  if br.blockVoteMap.len ≥ ob.ledger.cs.observerKeyMap.len / 2 + 1 then
    ob.connectVoted su amb br vote
  else (.ok (), ob)

def applyBlockVote (br : BlockRound Acc Ev Tx) (gen : BlockGenMessage Tx) (sender : PublicHash)
    (vote : BlockVote) (ob : ObserverNode Acc Ev Tx) : Handled Acc Ev Tx :=
  if (br.blockVoteMap.get sender).isSome then
    (.error .alreadyVoted, if !vote.isReply then ob.sendBlockVoteTo su gen sender else ob)
  else
    let ob := ob.putBlockRound vote.header.height (br.countVote sender vote)
    (ob.replyBlockVote su gen sender vote.isReply).countBlockVotes su amb
      (br.countVote sender vote) vote

def forgive (addr : Address) (ob : ObserverNode Acc Ev Tx) : ObserverNode Acc Ev Tx :=
  if (ob.ignoreMap.get addr).isSome then
    { ob with
      ignoreMap := ob.ignoreMap.delete addr
      round := { ob.round with voteFailCount := 0 } }
  else ob

/-- The block that others vote for is asked for while the observer waits for it. -/
def askBlockGen (height : UInt32) (br : BlockRound Acc Ev Tx) (ob : ObserverNode Acc Ev Tx) :
    Handled Acc Ev Tx :=
  if ob.round.roundState = .blockWaitState ∧ br.blockGenMessageWait.isNone ∧
      br.blockGenMessage.isNone then
    ob.sendBlockGenRequest su amb height br
  else (.ok (), ob)

/-- A vote that comes before the block is kept. -/
def keepBlockVote (br : BlockRound Acc Ev Tx) (sender : PublicHash) (msg : BlockVoteMessage)
    (ob : ObserverNode Acc Ev Tx) : Handled Acc Ev Tx :=
  let header := msg.blockVote.header
  let ob := (ob.forgive header.generator).putBlockRound header.height (br.keepVote sender msg)
  match ob.askBlockGen su amb header.height (br.keepVote sender msg) with
  | (.error err, ob) => (.error err, ob)
  | (.ok _, ob) => (.error .invalidVote, ob)

def handleBlockVote (sender : PublicHash) (msg : BlockVoteMessage) (ob : ObserverNode Acc Ev Tx) :
    Handled Acc Ev Tx :=
  let vote := msg.blockVote
  let height := vote.header.height
  match ob.verifySender su (.blockVote vote) msg.signature sender with
  | .error err => (.error err, ob)
  | .ok _ =>
    match ob.round.blockRoundMap.get height with
    | none => (.error .invalidVote, ob)
    | some br =>
      if height ≠ ob.round.targetHeight then
        (.error .invalidVote,
          if height < ob.round.targetHeight then ob.sendStatusTo sender
          else ob.putBlockRound height (br.keepVote sender msg))
      else if ob.round.roundState ≠ .blockVoteState then ob.keepBlockVote su amb br sender msg
      else
        match ob.checkBlockVote su br sender vote with
        | .error err => (.error err, ob)
        | .ok _ =>
          match br.blockGenMessage with
          | none => (.error .panicked, ob)
          | some gen => ob.applyBlockVote su amb br gen sender vote

end BlockVote

section Sync

variable [HashFunction] [HeaderCodec] (amb : Ambient)

/-- The blocks of a request, as `BlockPacketWithCache` packs them; the caches hold
packets of connected blocks. -/
def requestedBlocks (st : Store Tx) (height : UInt32) : Nat → Except Err (List (Block Tx))
  | 0 => .ok []
  | count + 1 =>
    if height > st.height then .ok []
    else
      match st.block height with
      | .error err => .error err
      | .ok b =>
        match requestedBlocks st (height + 1) count with
        | .error err => .error err
        | .ok rest => .ok (b :: rest)

def handleRequest (sender : PublicHash) (msg : RequestMessage) (ob : ObserverNode Acc Ev Tx) :
    Handled Acc Ev Tx :=
  let count := if msg.count = 0 then 1 else if msg.count > 10 then 10 else msg.count
  if msg.height > ob.ledger.store.height then (.ok (), ob)
  else
    match requestedBlocks ob.ledger.store msg.height count.toNat with
    | .error err => (.error err, ob)
    | .ok list => (.ok (), ob.send (.toObserver sender (.blocks list)))

/-- The requests for one run of ten heights above the base: one request for all of them,
or one for each that is not pending. -/
def requestTen (sender : PublicHash) (baseHeight statusHeight : UInt32)
    (ob : ObserverNode Acc Ev Tx) : ObserverNode Acc Ev Tx :=
  let heights := (List.range 10).map fun i => baseHeight + 1 + UInt32.ofNat i
  let enabled := heights.filter fun i => decide (i ≤ statusHeight) && !amb.requested i
  if enabled.length = 10 then ob.sendRequestBlockTo sender (baseHeight + 1) 10
  else enabled.foldl (fun ob i => ob.sendRequestBlockTo sender i 1) ob

/-- A higher chain is asked for its blocks, at most a hundred; a different block of a
height the observer has is fatal. -/
def handleStatus (sender : PublicHash) (msg : StatusMessage) (ob : ObserverNode Acc Ev Tx) :
    Handled Acc Ev Tx :=
  let height := ob.ledger.store.height
  if height < msg.height then
    let bases := ((List.range 10).map fun q => height + UInt32.ofNat (10 * q)).takeWhile
      fun base => !decide (base > msg.height)
    (.ok (), bases.foldl (fun ob base => ob.requestTen amb sender base msg.height) ob)
  else
    match ob.ledger.store.hash msg.height with
    | .error err => (.error err, ob)
    | .ok h => if h ≠ msg.lastHash then (.error .panicked, ob) else (.ok (), ob)

/-- A block the observer has must be the same one; a new one is queued, and a second one
of the same height must be the same as the queued one. -/
def addBlock (b : Block Tx) (ob : ObserverNode Acc Ev Tx) : Handled Acc Ev Tx :=
  if b.header.height ≤ ob.ledger.store.height then
    match ob.ledger.store.hash b.header.height with
    | .error err => (.error err, ob)
    | .ok h => if h ≠ b.header.hash then (.error .foundForkedBlock, ob) else (.ok (), ob)
  else
    match ob.blockQ.get b.header.height.toNat with
    | none => (.ok (), { ob with blockQ := ob.blockQ.put b.header.height.toNat b })
    | some old =>
      if old.header.hash ≠ b.header.hash then (.error .foundForkedBlock, ob) else (.ok (), ob)

/-- Every block that cannot be added is fatal. -/
def handleBlocks : List (Block Tx) → ObserverNode Acc Ev Tx → Handled Acc Ev Tx
  | [], ob => (.ok (), ob)
  | b :: rest, ob =>
    match ob.addBlock b with
    | (.error _, ob) => (.error .panicked, ob)
    | (.ok _, ob) => handleBlocks rest ob

end Sync

variable [Account Acc] [Event Ev] [Base58] [HashFunction] [Msgpack] [HeaderCodec]
  [AccountCodec Acc] [TxOutCodec] [EventCodec Ev] [FormulatorAccount Acc] [Codec] [MessageCodec]
  [Transaction Acc Ev Tx] (su : Setup Acc Ev Tx) (amb : Ambient)

def handleObserverMessage (item : MessageItem Tx) (ob : ObserverNode Acc Ev Tx) :
    Handled Acc Ev Tx :=
  match item.message with
  | .roundVote msg => ob.handleRoundVote su amb item.publicHash msg
  | .roundVoteAck msg => ob.handleRoundVoteAck su amb item.publicHash msg
  | .blockGen msg => ob.handleBlockGen su amb msg item.packet
  | .blockVote msg => ob.handleBlockVote su amb item.publicHash msg
  | .request msg => ob.handleRequest item.publicHash msg
  | .status msg => ob.handleStatus amb item.publicHash msg
  | .blocks list => ob.handleBlocks list
  -- The case of the source for a block request is for a value, but messages are pointers.
  | .blockGenRequest _ => (.error .unknownMessage, ob)
  | .blockReq _ => (.error .unknownMessage, ob)
  | .blockObSign _ => (.error .unknownMessage, ob)

/-- `PopUntil`: the blocks of lower heights are dropped. -/
def popUntil (priority : Nat) (queue : SortedMap Nat (Block Tx)) :
    Option (Block Tx) × SortedMap Nat (Block Tx) :=
  let queue :=
    ((queue.eachAll.map Prod.fst).filter fun key => decide (key < priority)).foldl (·.delete ·) queue
  match queue.get priority with
  | none => (none, queue)
  | some b => (some b, queue.delete priority)

/-- The loop of the block timer, for at most `count` blocks. A block of the queue that
cannot be connected is fatal. -/
def connectQueued : Nat → Nat → ObserverNode Acc Ev Tx → Handled Acc Ev Tx
  | 0, _, ob => (.ok (), ob)
  | count + 1, targetHeight, ob =>
    match popUntil targetHeight ob.blockQ with
    | (none, queue) => (.ok (), { ob with blockQ := queue })
    | (some b, queue) =>
      let ob := { ob with blockQ := queue }
      match ob.ledger.connectBlock su.cn b none with
      | (.error _, ledger) => (.error .panicked, { ob with ledger := ledger })
      | (.ok _, ledger) => connectQueued count (targetHeight + 1) (ob.join b ledger)

def blockTimer (ob : ObserverNode Acc Ev Tx) : Handled Acc Ev Tx :=
  match ob.connectQueued su 101 (ob.ledger.store.height + 1).toNat with
  | (.error err, ob) => (.error err, ob)
  | (.ok _, after) =>
    let hasItem := after.connected.length > ob.connected.length
    (.ok (), if hasItem then after.broadcastStatus else after)

def syncVoteRound (ob : ObserverNode Acc Ev Tx) : Handled Acc Ev Tx :=
  let targetHeight := ob.ledger.store.height + 1
  if ob.round.targetHeight < targetHeight then
    match ob.ledger.cs.rt.topRank 0 with
    | .error _ => (.error .panicked, ob)
    | .ok top =>
      match ob.round.minRoundVoteAck, ob.round.blockRoundMap.get targetHeight with
      | some ack, some br =>
        if top.address = ack.formulator then
          let ob := { ob with round := { ob.round with
            targetHeight := targetHeight
            roundState := .blockWaitState } }
          match br.blockGenMessageWait, br.blockGenMessage with
          | some wait, none =>
            (.ok (), (ob.push ⟨[], .blockGen wait, false⟩).putBlockRound targetHeight
              { br with blockGenMessageWait := none })
          | _, _ => (.ok (), ob)
        else (.ok (), ob.resetVoteRound false)
      | _, _ => (.ok (), ob.resetVoteRound false)
  else (.ok (), ob)

def ignoreFormulator (ob : ObserverNode Acc Ev Tx) : ObserverNode Acc Ev Tx :=
  match ob.round.minRoundVoteAck with
  | none => ob
  | some ack =>
    let seconds := if (ob.ignoreMap.get ack.formulator).isSome then 120 else 30
    { ob with ignoreMap :=
        ob.ignoreMap.put ack.formulator (amb.now.toNat + seconds * second.toNat) }

def failRound (ob : ObserverNode Acc Ev Tx) : ObserverNode Acc Ev Tx :=
  let ob := { ob with round := { ob.round with voteFailCount := ob.round.voteFailCount + 1 } }
  if ob.round.voteFailCount > 30 then (ob.ignoreFormulator amb).resetVoteRound true else ob

/-- What the vote timer sends in the state of the round; an observer that has voted for a
block does not fail. -/
def sendVotes (ob : ObserverNode Acc Ev Tx) : Handled Acc Ev Tx :=
  match ob.round.roundState with
  | .roundVoteState => (.ok (), ((ob.sendRoundVote su amb).broadcastStatus).failRound amb)
  | .blockVoteState =>
    match ob.round.blockRoundMap.get ob.round.targetHeight with
    | none => (.ok (), ob.failRound amb)
    | some br =>
      match br.blockGenMessage with
      | none => (.error .panicked, ob)
      | some gen => (.ok (), ob.sendBlockVote su gen)
  | _ => (.ok (), ob.failRound amb)

def voteTimer (ob : ObserverNode Acc Ev Tx) : Handled Acc Ev Tx :=
  match ob.syncVoteRound with
  | (.error err, ob) => (.error err, ob)
  | (.ok _, ob) => if ob.adjustFormulatorMap amb = [] then (.ok (), ob) else ob.sendVotes su amb

def queueTimer (ob : ObserverNode Acc Ev Tx) : Handled Acc Ev Tx :=
  match ob.messageQueue with
  | [] => (.ok (), ob)
  | item :: rest => { ob with messageQueue := rest }.handleObserverMessage su amb item

def onObserverRecv (sender : PublicHash) (m : Message Tx) (ob : ObserverNode Acc Ev Tx) :
    Handled Acc Ev Tx :=
  match m with
  | .blockGen _ => (.ok (), ob.push ⟨[], m, true⟩)
  | _ => (.ok (), ob.push ⟨sender, m, false⟩)

/-- Of the messages of a formulator only a generated block reaches the queue. Requests and
statuses are answered beside the round; any other message is fatal. -/
def onFormulatorRecv (m : Message Tx) (ob : ObserverNode Acc Ev Tx) : Handled Acc Ev Tx :=
  match m with
  | .blockGen _ => (.ok (), ob.push ⟨[], m, true⟩)
  | .request _ => (.ok (), ob)
  | .status _ => (.ok (), ob)
  | _ => (.error .panicked, ob)

/-- What happens to an observer. The queue timer handles the queue message by message, and
other messages may arrive between two of them. -/
inductive Input (Tx : Type) where
  | blockTimer
  | queueTimer
  | voteTimer
  | observerRecv (sender : PublicHash) (m : Message Tx)
  | formulatorRecv (m : Message Tx)

def handleInput (input : Input Tx) (ob : ObserverNode Acc Ev Tx) : Handled Acc Ev Tx :=
  match input with
  | .blockTimer => ob.blockTimer su
  | .queueTimer => ob.queueTimer su amb
  | .voteTimer => ob.voteTimer su amb
  | .observerRecv sender m => ob.onObserverRecv sender m
  | .formulatorRecv m => ob.onFormulatorRecv m

def step (input : Input Tx) (ob : ObserverNode Acc Ev Tx) : ObserverNode Acc Ev Tx :=
  if ob.halted then ob
  else
    match ob.handleInput su amb input with
    | (.error .panicked, ob) => ob.halt
    | (_, ob) => ob

end ObserverNode

end Fleta.Pof
