import Fleta.ObserverSteps

/-!
# One vote per height

What holds of a single observer whatever it receives: its blocks are filed under their
heights, the votes it has counted were made, and it signs at most one header of a height.
The heights of a round end below the largest one of 32 bits, so that no vote and no chain
ever gets there and heights do not start again at zero.
-/

namespace Fleta.Pof

open SortedMap

variable {Acc Ev Tx : Type} {target count height : UInt32}

/-- The heights of a round do not reach the largest one, because its bound would wrap. -/
theorem roundHeights_lt (listed : height ∈ roundHeights target count) :
    height.toNat + 1 < 2 ^ 32 := by
  unfold roundHeights at listed
  rw [List.mem_map] at listed
  obtain ⟨i, below, same⟩ := listed
  rw [List.mem_range] at below
  have bound := (target + count).toNat_lt
  have small : target.toNat + i + 1 < 2 ^ 32 := by omega
  rw [← same, UInt32.toNat_add, UInt32.toNat_ofNat', Nat.mod_eq_of_lt (by omega : i < 2 ^ 32),
    Nat.mod_eq_of_lt (by omega)]
  exact small

theorem VoteRound.new_entry {br : BlockRound Acc Ev Tx}
    (found : (VoteRound.new target count).blockRoundMap.get height = some br) :
    br = .new ∧ height ∈ roundHeights target count := by
  have entries : ∀ (heights : List UInt32) (map : SortedMap UInt32 (BlockRound Acc Ev Tx)),
      (heights.foldl (fun map i => map.put i BlockRound.new) map).get height = some br →
        map.get height = some br ∨ br = .new ∧ height ∈ heights := by
    intro heights
    induction heights with
    | nil => exact fun map kept => .inl kept
    | cons first heights ih =>
      intro map kept
      rcases ih (map.put first .new) kept with old | ⟨fresh, later⟩
      · rw [get_put] at old
        split at old
        · rename_i same
          cases old
          exact .inr ⟨rfl, by simp [same]⟩
        · exact .inl old
      · exact .inr ⟨fresh, List.mem_cons_of_mem _ later⟩
  rcases entries _ _ found with none | new
  · simp at none
  · exact new

namespace ObserverNode

def Entries (P : UInt32 → BlockRound Acc Ev Tx → Prop) (ob : ObserverNode Acc Ev Tx) : Prop :=
  ∀ height br, ob.round.blockRoundMap.get height = some br → P height br

namespace Entries

variable {P : UInt32 → BlockRound Acc Ev Tx → Prop} {ob : ObserverNode Acc Ev Tx}

theorem put {height : UInt32} {br : BlockRound Acc Ev Tx} (all : ob.Entries P) (new : P height br) :
    (ob.putBlockRound height br).Entries P :=
  forall_get_put all new

theorem begun {target count : UInt32} (round : ob.round = .new target count)
    (new : ∀ height : UInt32, height.toNat + 1 < 2 ^ 32 → P height .new) : ob.Entries P := by
  intro height br found
  rw [round] at found
  obtain ⟨fresh, listed⟩ := VoteRound.new_entry found
  exact fresh ▸ new height (roundHeights_lt listed)

theorem imp {Q : UInt32 → BlockRound Acc Ev Tx → Prop} (all : ob.Entries P)
    (weaker : ∀ height br, P height br → Q height br) : ob.Entries Q :=
  fun height br found => weaker height br (all height br found)

end Entries

structure FiledEntry (height : UInt32) (br : BlockRound Acc Ev Tx) : Prop where
  room : height.toNat + 1 < 2 ^ 32
  filed : ∀ gen, br.blockGenMessage = some gen → gen.block.header.height = height

theorem FiledEntry.congr {height : UInt32} {br br' : BlockRound Acc Ev Tx}
    (entry : FiledEntry height br) (same : SameVotes br br') : FiledEntry height br' where
  room := entry.room
  filed gen held := entry.filed gen (same.blockGenMessage.symm.trans held)

section Filing

variable [Account Acc] [Event Ev] [Base58] [HashFunction] [Msgpack] [HeaderCodec]
  [AccountCodec Acc] [TxOutCodec] [EventCodec Ev] [FormulatorAccount Acc] [Codec] [MessageCodec]
  [Transaction Acc Ev Tx] {su : Setup Acc Ev Tx} {current : Option (Message Tx)}
  {ob ob' : ObserverNode Acc Ev Tx}

theorem filedEntries_move (all : ob.Entries FiledEntry) (move : Move su current ob ob') :
    ob'.Entries FiledEntry := by
  cases move with
  | note same =>
    intro height br found
    exact all height br (same.blockRoundMap ▸ found)
  | push | sign | vote | turn | refuse | connectVoted | connectQueued | enqueue | dequeue =>
    exact all
  | wait found same => exact all.put ((all _ _ found).congr same)
  | tally voting => exact all.put ⟨(all _ _ voting.found).room, (all _ _ voting.found).filed⟩
  | accept _ _ found _ height =>
    have voting : Entries FiledEntry
        { ob with round := { ob.round with roundState := .blockVoteState } } := all
    refine voting.put ⟨(all _ _ found).room, ?_⟩
    intro gen held
    cases held
    exact height
  | proceed _ _ _ entries =>
    intro height br' found
    obtain ⟨br, old, same, _⟩ := entries height br' found
    exact (all height br old).congr same
  | reset => exact Entries.begun rfl fun height room => ⟨room, nofun⟩

end Filing

section Evidence

variable [HashFunction] [Codec]

/-- Whatever an observer's signature is taken for, the observer is known to have signed it. -/
def Genuine (su : Setup Acc Ev Tx) (keys : SortedMap PublicHash Bool)
    (known : PublicHash → Hash256 → Prop) (sig : Signature) : Prop :=
  ∀ digest signer, su.cn.recoverPublicHash digest sig = .ok signer → keys.has signer = true →
    known signer digest

/-- The signatures in a message that an observer may count. -/
def Heard (su : Setup Acc Ev Tx) (keys : SortedMap PublicHash Bool)
    (known : PublicHash → Hash256 → Prop) : Message Tx → Prop
  | .blockVote msg => Genuine su keys known msg.blockVote.observerSignature
  | .blocks list => ∀ b ∈ list, ∀ sig ∈ b.signatures, Genuine su keys known sig
  | _ => True

variable [HeaderCodec]

/-- A majority of the observers has signed the header of a block, each with some signature
of its generator. -/
def Backed (keys : SortedMap PublicHash Bool) (known : PublicHash → Hash256 → Prop)
    (b : Block Tx) : Prop :=
  ∃ voters, Voting.Majority (keys.eachAll.map Prod.fst) voters ∧ ∀ voter ∈ voters,
    ∃ generatorSignature, known voter (BlockSign.hash ⟨b.header.hash, generatorSignature⟩)

/-- Votes that are counted or wait in an entry of the round. -/
structure Evidence (su : Setup Acc Ev Tx) (keys : SortedMap PublicHash Bool)
    (known : PublicHash → Hash256 → Prop) (br : BlockRound Acc Ev Tx) : Prop where
  counted : ∀ sender vote, br.blockVoteMap.get sender = some vote → keys.has sender = true ∧
    Genuine su keys known vote.observerSignature ∧ ∃ gen, br.blockGenMessage = some gen ∧
      su.cn.recoverPublicHash (BlockSign.hash ⟨gen.block.header.hash, vote.generatorSignature⟩)
        vote.observerSignature = .ok sender
  waiting : ∀ sender msg, br.blockVoteMessageWaitMap.get sender = some msg →
    Genuine su keys known msg.blockVote.observerSignature

/-- Every vote and every block an observer holds is made up of signatures that were made. -/
structure Evident (su : Setup Acc Ev Tx) (keys : SortedMap PublicHash Bool)
    (known : PublicHash → Hash256 → Prop) (ob : ObserverNode Acc Ev Tx) : Prop where
  observers : ob.ledger.cs.observerKeyMap = keys
  entries : ob.Entries fun _ => Evidence su keys known
  queue : ∀ item ∈ ob.messageQueue, Heard su keys known item.message
  blocks : ∀ key b, ob.blockQ.get key = some b → ∀ sig ∈ b.signatures, Genuine su keys known sig
  connected : ∀ b ∈ ob.connected, Backed keys known b

variable {su : Setup Acc Ev Tx} {keys : SortedMap PublicHash Bool}
  {known known' : PublicHash → Hash256 → Prop}

variable {b : Block Tx} {br : BlockRound Acc Ev Tx} {ob : ObserverNode Acc Ev Tx}

section Mono

variable (more : ∀ signer digest, known signer digest → known' signer digest)

include more

section

omit [HashFunction] [Codec] [HeaderCodec]

theorem Genuine.mono {sig : Signature} (genuine : Genuine su keys known sig) :
    Genuine su keys known' sig :=
  fun digest signer recovered observer => more _ _ (genuine digest signer recovered observer)

theorem Heard.mono {m : Message Tx} (heard : Heard su keys known m) : Heard su keys known' m := by
  cases m with
  | blockVote msg => exact Genuine.mono more heard
  | blocks list => exact fun b listed sig carried => (heard b listed sig carried).mono more
  | _ => exact trivial

end

theorem Backed.mono (backed : Backed keys known b) : Backed keys known' b := by
  obtain ⟨voters, majority, signed⟩ := backed
  refine ⟨voters, majority, fun voter listed => ?_⟩
  obtain ⟨generatorSignature, made⟩ := signed voter listed
  exact ⟨generatorSignature, more _ _ made⟩

theorem Evidence.mono (evidence : Evidence su keys known br) : Evidence su keys known' br where
  counted sender vote found := by
    obtain ⟨observer, genuine, signed⟩ := evidence.counted sender vote found
    exact ⟨observer, genuine.mono more, signed⟩
  waiting sender msg found := (evidence.waiting sender msg found).mono more

theorem Evident.mono (evident : Evident su keys known ob) : Evident su keys known' ob where
  observers := evident.observers
  entries := evident.entries.imp fun _ _ evidence => evidence.mono more
  queue item queued := (evident.queue item queued).mono more
  blocks key b queued sig carried := (evident.blocks key b queued sig carried).mono more
  connected b joined := (evident.connected b joined).mono more

end Mono

theorem Evidence.congr {br' : BlockRound Acc Ev Tx} (evidence : Evidence su keys known br)
    (same : SameVotes br br')
    (waiting : ∀ sender msg, br'.blockVoteMessageWaitMap.get sender = some msg →
      Genuine su keys known msg.blockVote.observerSignature) : Evidence su keys known br' where
  counted sender vote found := by
    obtain ⟨observer, genuine, gen, held, signed⟩ :=
      evidence.counted sender vote (same.blockVoteMap ▸ found)
    exact ⟨observer, genuine, gen, same.blockGenMessage.trans held, signed⟩
  waiting := waiting

theorem Evidence.new : Evidence su keys known (BlockRound.new : BlockRound Acc Ev Tx) where
  counted sender vote found := by simp [BlockRound.new] at found
  waiting sender msg found := by simp [BlockRound.new] at found

theorem Evident.new {key : PublicHash} {ledger : Ledger Tx}
    (same : ledger.cs.observerKeyMap = keys) :
    Evident su keys known (ObserverNode.new key ledger : ObserverNode Acc Ev Tx) where
  observers := same
  entries := Entries.begun rfl fun _ _ => .new
  queue _ queued := absurd queued List.not_mem_nil
  blocks _ _ queued := by simp [ObserverNode.new] at queued
  connected _ joined := absurd joined List.not_mem_nil

theorem backed_of_valid {cs : Consensus}
    (valid : cs.validateSignature su.cn.recoverPublicHash b.header b.signatures = .ok ())
    (observers : cs.observerKeyMap = keys)
    (genuine : ∀ sig ∈ b.signatures, Genuine su keys known sig) : Backed keys known b := by
  obtain ⟨_, _, generatorSignature, observerSignatures, _, _, _, carried, _, majority⟩ :=
    Consensus.validateSignature_ok.mp valid
  obtain ⟨signers, large, recovered⟩ := majority_of_valid majority
  rw [Consensus.observerKeys, observers] at large
  refine ⟨signers, large, fun signer listed => ⟨generatorSignature, ?_⟩⟩
  obtain ⟨sig, made, found⟩ := recovered signer listed
  refine genuine sig (carried ▸ List.mem_cons_of_mem _ made) _ signer found ?_
  rw [has_eq, has_iff_key_visited]
  exact large.within signer listed

theorem Evidence.backed {gen : BlockGenMessage Tx}
    (evidence : Evidence su keys known br) (held : br.blockGenMessage = some gen)
    (own : b.header = gen.block.header) (quorum : keys.len / 2 + 1 ≤ br.blockVoteMap.len) :
    Backed keys known b := by
  have counted : ∀ voter ∈ br.blockVoteMap.eachAll.map Prod.fst, keys.has voter = true ∧
      ∃ generatorSignature, known voter (BlockSign.hash ⟨b.header.hash, generatorSignature⟩) := by
    intro voter listed
    rw [← has_iff_key_visited, Option.isSome_iff_exists] at listed
    obtain ⟨vote, found⟩ := listed
    obtain ⟨observer, genuine, gen', held', signed⟩ := evidence.counted voter vote found
    rw [held] at held'
    cases held'
    exact ⟨observer, vote.generatorSignature, own ▸ genuine _ _ signed observer⟩
  refine ⟨br.blockVoteMap.eachAll.map Prod.fst, ⟨each_all_keys_nodup _, ?_, ?_⟩, ?_⟩
  · intro voter listed
    rw [← has_iff_key_visited, ← has_eq]
    exact (counted voter listed).1
  · rw [List.length_map, List.length_map, length_eachAll, length_eachAll]
    exact quorum
  · exact fun voter listed => (counted voter listed).2

variable [MessageCodec]

/-- What is assumed of the signatures of the observers: nothing that is signed collides
with anything else, and a signature counts for no other key and nothing else. -/
structure Signing (su : Setup Acc Ev Tx) (keys : SortedMap PublicHash Bool) : Prop where
  digest_injective : Function.Injective Signable.digest
  hash_injective : Function.Injective Header.hash
  sign_recover : ∀ key digest sig, su.sign key digest = .ok sig →
    ∀ digest' signer, su.cn.recoverPublicHash digest' sig = .ok signer →
      keys.has signer = true → signer = key ∧ digest' = digest

/-- A signature is taken for an observer's on one digest only. -/
def Binding (su : Setup Acc Ev Tx) (keys : SortedMap PublicHash Bool) : Prop :=
  ∀ digest digest' sig signer signer', su.cn.recoverPublicHash digest sig = .ok signer →
    su.cn.recoverPublicHash digest' sig = .ok signer' → keys.has signer = true →
    keys.has signer' = true → digest = digest'

/-- What the observer knows to be signed: the record `made` of all observers, and what it
has signed itself. -/
def Known (made : PublicHash → Hash256 → Prop) (ob : ObserverNode Acc Ev Tx) (signer : PublicHash)
    (digest : Hash256) : Prop :=
  made signer digest ∨ signer = ob.myPublicHash ∧ ∃ s ∈ ob.signed, s.digest = digest

omit [HeaderCodec] in
theorem known_mono {made made' : PublicHash → Hash256 → Prop} (more : ∀ signer digest, made signer digest → made' signer digest)
    (signer : PublicHash) (digest : Hash256) (known : ob.Known made signer digest) :
    ob.Known made' signer digest :=
  known.imp_left (more signer digest)

theorem heard_of_kept {made : PublicHash → Hash256 → Prop}
    (signing : Signing su keys) (evident : Evident su keys (ob.Known made) ob)
    {m : Message Tx} (kept : ob.Kept su m) : Heard su keys (ob.Known made) m := by
  cases m with
  | blockVote msg =>
    rcases kept with ⟨s, signed, own⟩ | ⟨height, br, sender, found, waits⟩
    · intro digest signer recovered observer
      obtain ⟨self, same⟩ := signing.sign_recover _ _ _ own digest signer recovered observer
      exact .inr ⟨self, s, signed, same.symm⟩
    · exact (evident.entries height br found).waiting sender msg waits
  | blocks list => exact kept.elim
  | _ => exact trivial

end Evidence

section Votes

variable [HashFunction] [HeaderCodec]

/-- The observer has signed a header of the height with the hash. -/
def Voted (ob : ObserverNode Acc Ev Tx) (height : Nat) (hash : Hash256) : Prop :=
  ∃ (header : Header) (generatorSignature : Signature), header.height.toNat = height ∧
    header.hash = hash ∧ .blockSign ⟨hash, generatorSignature⟩ ∈ ob.signed

/-- The vote the observer stands by. -/
def ballot (ob : ObserverNode Acc Ev Tx) : Option (Nat × Hash256) :=
  if ob.round.roundState = .blockVoteState then
    ((ob.round.blockRoundMap.get ob.round.targetHeight).bind (·.blockGenMessage)).map fun gen =>
      (ob.round.targetHeight.toNat, gen.block.header.hash)
  else none

def nextHeight (ob : ObserverNode Acc Ev Tx) : Nat := (ob.ledger.store.height + 1).toNat

/-- The observer votes for one header of a height, and for none of the largest height. -/
structure Steady (ob : ObserverNode Acc Ev Tx) : Prop where
  votes : Voting.Disciplined ob.nextHeight ob.Voted ob.ballot
  low : ∀ height hash, ob.Voted height hash → height + 1 < 2 ^ 32

variable {ob ob' : ObserverNode Acc Ev Tx}

theorem ballot_voting {br : BlockRound Acc Ev Tx} {gen : BlockGenMessage Tx}
    (voting : ob.Voting br gen) :
    ob.ballot = some (ob.round.targetHeight.toNat, gen.block.header.hash) := by
  unfold ballot
  rw [if_pos voting.state, voting.found, Option.bind_some, voting.held, Option.map_some]

theorem ballot_idle (idle : ob.round.roundState ≠ .blockVoteState) : ob.ballot = none := by
  unfold ballot
  rw [if_neg idle]

theorem ballot_put {height : UInt32} {br br' : BlockRound Acc Ev Tx}
    (found : ob.round.blockRoundMap.get height = some br)
    (same : br'.blockGenMessage = br.blockGenMessage) :
    (ob.putBlockRound height br').ballot = ob.ballot := by
  unfold ballot putBlockRound
  rw [get_put]
  split
  · split
    · rename_i target
      rw [← target, found, Option.bind_some, Option.bind_some, same]
    · rfl
  · rfl

theorem not_ballot_next
    (free : ob.round.roundState = .blockVoteState →
      ob.round.targetHeight = ob.ledger.store.height + 1 →
        ob.round.blockRoundMap.get ob.round.targetHeight = none) (hash : Hash256) :
    ob.ballot ≠ some (ob.nextHeight, hash) := by
  intro standing
  unfold ballot at standing
  split at standing
  · rename_i state
    rw [Option.map_eq_some_iff] at standing
    obtain ⟨gen, held, same⟩ := standing
    rw [Prod.mk.injEq] at same
    rw [free state (UInt32.toNat_inj.mp same.1)] at held
    cases held
  · cases standing

theorem Steady.of_same (steady : ob.Steady) (next : ob'.nextHeight = ob.nextHeight)
    (ballot : ob'.ballot = ob.ballot) (fewer : ∀ height hash, ob'.Voted height hash →
      ob.Voted height hash) : ob'.Steady where
  votes := by
    rw [next, ballot]
    exact steady.votes.of_votes fewer
  low height hash voted := steady.low height hash (fewer height hash voted)

theorem Steady.join {b : Block Tx} {ledger : Ledger Tx} (steady : ob.Steady)
    (height : b.header.height = ob.ledger.store.height + 1)
    (room : b.header.height.toNat + 1 < 2 ^ 32)
    (moved : ledger.store.height = b.header.height) : (ob.join b ledger).Steady where
  votes := by
    have next : (ob.join b ledger).nextHeight = b.header.height.toNat + 1 := by
      have read : (ob.join b ledger).nextHeight = (ledger.store.height + 1).toNat := rfl
      rw [read, moved, UInt32.toNat_add, UInt32.toNat_one, Nat.mod_eq_of_lt room]
    refine steady.votes.advance ?_
    rw [next, height, nextHeight]
    omega
  low := steady.low

/-- No observer has signed a header of the largest height. -/
def Low [Codec] (keys : SortedMap PublicHash Bool) (made : PublicHash → Hash256 → Prop) : Prop :=
  ∀ (signer : PublicHash) (header : Header) (generatorSignature : Signature),
    keys.has signer = true → made signer (BlockSign.hash ⟨header.hash, generatorSignature⟩) →
      header.height.toNat + 1 < 2 ^ 32

variable {su : Setup Acc Ev Tx} {keys : SortedMap PublicHash Bool}
  {made : PublicHash → Hash256 → Prop}

theorem Backed.low [Codec] [MessageCodec] {b : Block Tx} (signing : Signing su keys)
    (steady : ob.Steady) (others : Low keys made)
    (backed : Backed keys (ob.Known made) b) : b.header.height.toNat + 1 < 2 ^ 32 := by
  obtain ⟨voters, majority, signed⟩ := backed
  obtain ⟨voter, listed, observer⟩ := majority.nonempty
  obtain ⟨generatorSignature, known⟩ := signed voter listed
  rcases known with other | ⟨_, s, own, same⟩
  · rw [← has_iff_key_visited, ← has_eq] at observer
    exact others voter b.header generatorSignature observer other
  · have voted : s = .blockSign ⟨b.header.hash, generatorSignature⟩ := signing.digest_injective same
    exact steady.low _ _ ⟨b.header, generatorSignature, rfl, rfl, voted ▸ own⟩

variable {generatorSignature : Signature} {header : Header}

theorem voted_cons (injective : Function.Injective Header.hash) {height : Nat} {hash : Hash256}
    (voted : { ob with
      signed := .blockSign ⟨header.hash, generatorSignature⟩ :: ob.signed }.Voted height hash) :
    ob.Voted height hash ∨ height = header.height.toNat ∧ hash = header.hash := by
  obtain ⟨other, sig, at_height, hashed, signed⟩ := voted
  rcases List.mem_cons.mp signed with new | old
  · rw [Signable.blockSign.injEq, BlockSign.mk.injEq] at new
    have same : other = header := injective (hashed.trans new.1)
    exact .inr ⟨same ▸ at_height.symm, new.1⟩
  · exact .inl ⟨other, sig, at_height, hashed, old⟩

theorem Steady.recast (steady : ob.Steady) (injective : Function.Injective Header.hash)
    (standing : ob.ballot = some (header.height.toNat, header.hash))
    (room : header.height.toNat + 1 < 2 ^ 32) :
    { ob with signed := .blockSign ⟨header.hash, generatorSignature⟩ :: ob.signed }.Steady := by
  constructor
  · have votes := steady.votes
    rw [standing] at votes
    have again := votes.recast
    rw [← standing] at again
    exact again.of_votes fun _ _ voted => voted_cons injective voted
  · intro height hash voted
    rcases voted_cons injective voted with old | ⟨new, _⟩
    · exact steady.low height hash old
    · exact new ▸ room

theorem voted_of_signed (signed : ob'.signed = ob.signed) (height : Nat) (hash : Hash256)
    (voted : ob'.Voted height hash) : ob.Voted height hash := by
  unfold Voted at voted ⊢
  rwa [signed] at voted

theorem Steady.stand (steady : ob.Steady) (hash : Hash256)
    (free : ∀ other, ob.ballot ≠ some (ob.nextHeight, other)) (next : ob'.nextHeight = ob.nextHeight)
    (signed : ob'.signed = ob.signed) (standing : ob'.ballot = some (ob.nextHeight, hash)) :
    ob'.Steady := by
  have fewer := voted_of_signed signed
  constructor
  · rw [next, standing]
    exact (steady.votes.cast free hash).of_votes fun height hash voted =>
      .inl (fewer height hash voted)
  · exact fun height hash voted => steady.low height hash (fewer height hash voted)

theorem Steady.release (steady : ob.Steady)
    (passed : ∀ hash, ob.ballot ≠ some (ob.nextHeight, hash)) (next : ob'.nextHeight = ob.nextHeight)
    (signed : ob'.signed = ob.signed) (none : ob'.ballot = none) : ob'.Steady := by
  have fewer := voted_of_signed signed
  constructor
  · rw [next, none]
    exact (steady.votes.release passed).of_votes fewer
  · exact fun height hash voted => steady.low height hash (fewer height hash voted)

variable [Codec] [MessageCodec]

/-- The invariant of an observer. -/
structure Sound (su : Setup Acc Ev Tx) (keys : SortedMap PublicHash Bool)
    (made : PublicHash → Hash256 → Prop) (ob : ObserverNode Acc Ev Tx) : Prop where
  filed : ob.Entries FiledEntry
  evident : Evident su keys (ob.Known made) ob
  steady : ob.Steady

theorem Sound.mono {made' : PublicHash → Hash256 → Prop} (sound : Sound su keys made ob)
    (more : ∀ signer digest, made signer digest → made' signer digest) : Sound su keys made' ob where
  filed := sound.filed
  evident := sound.evident.mono (known_mono more)
  steady := sound.steady

theorem Sound.requeue (sound : Sound su keys made ob) {items : List (MessageItem Tx)}
    (heard : ∀ item ∈ items, Heard su keys (ob.Known made) item.message) :
    Sound su keys made { ob with messageQueue := items } where
  filed := sound.filed
  evident := ⟨sound.evident.observers, sound.evident.entries, heard, sound.evident.blocks,
    sound.evident.connected⟩
  steady := sound.steady.of_same rfl rfl fun _ _ voted => voted

end Votes

variable [Account Acc] [Event Ev] [Base58] [HashFunction] [Msgpack] [HeaderCodec]
  [AccountCodec Acc] [TxOutCodec] [EventCodec Ev] [FormulatorAccount Acc] [Codec] [MessageCodec]
  [Transaction Acc Ev Tx] {su : Setup Acc Ev Tx} {current : Option (Message Tx)}
  {ob ob' : ObserverNode Acc Ev Tx} {keys : SortedMap PublicHash Bool}
  {made : PublicHash → Hash256 → Prop}

theorem signed_move (move : Move su current ob ob') :
    ob'.myPublicHash = ob.myPublicHash ∧ ∀ s ∈ ob.signed, s ∈ ob'.signed := by
  cases move with
  | note same | proceed _ _ _ _ same => exact ⟨same.myPublicHash, fun s old => same.signed ▸ old⟩
  | sign | vote => exact ⟨rfl, fun s old => List.mem_cons_of_mem _ old⟩
  | _ => exact ⟨rfl, fun s old => old⟩

theorem signed_moves (moves : Moves su current ob ob') :
    ob'.myPublicHash = ob.myPublicHash ∧ ∀ s ∈ ob.signed, s ∈ ob'.signed := by
  induction moves with
  | refl => exact ⟨rfl, fun s old => old⟩
  | tail _ move ih =>
    obtain ⟨me, kept⟩ := signed_move move
    exact ⟨me.trans ih.1, fun s old => kept s (ih.2 s old)⟩

theorem signed_step (su : Setup Acc Ev Tx) (amb : Ambient) (input : Input Tx) (filed : ob.Filed) :
    (ob.step su amb input).myPublicHash = ob.myPublicHash ∧
      ∀ s ∈ ob.signed, s ∈ (ob.step su amb input).signed := by
  cases step_cases su amb input filed with
  | moves run => exact signed_moves run
  | handles _ run | receives _ run =>
    have kept := signed_moves run
    exact kept

theorem known_move (move : Move su current ob ob') (signer : PublicHash) (digest : Hash256)
    (known : ob.Known made signer digest) : ob'.Known made signer digest := by
  obtain ⟨me, kept⟩ := signed_move move
  rcases known with other | ⟨self, s, signed, same⟩
  · exact .inl other
  · exact .inr ⟨self.trans me.symm, s, kept s signed, same⟩

variable (signing : Signing su keys)

include signing

theorem Evident.move (evident : Evident su keys (ob.Known made) ob)
    (heard : ∀ m, current = some m → Heard su keys (ob.Known made) m)
    (move : Move su current ob ob') : Evident su keys (ob'.Known made) ob' := by
  have before : Evident su keys (ob'.Known made) ob := evident.mono (known_move move)
  obtain ⟨observers, entries, queue, blocks, connected⟩ := before
  cases move with
  | note same =>
    refine ⟨same.ledger ▸ observers, ?_, same.messageQueue ▸ queue, same.blockQ ▸ blocks,
      same.connected ▸ connected⟩
    intro height br found
    exact entries height br (same.blockRoundMap ▸ found)
  | push item kept =>
    have heard := forall_mem_concat queue (heard_of_kept signing evident kept)
    exact ⟨observers, entries, heard, blocks, connected⟩
  | sign | vote | turn => exact ⟨observers, entries, queue, blocks, connected⟩
  | wait found same waits =>
    refine ⟨observers, entries.put ((entries _ _ found).congr same ?_), queue, blocks, connected⟩
    intro sender msg waiting
    rcases waits sender msg waiting with old | new
    · exact (entries _ _ found).waiting sender msg old
    · exact heard _ new
  | tally voting observer same signedBy hears =>
    refine ⟨observers, entries.put ⟨?_, (entries _ _ voting.found).waiting⟩, queue, blocks, connected⟩
    intro sender vote found
    rw [BlockRound.countVote, get_put] at found
    split at found
    · rename_i counted
      cases found
      rw [evident.observers, counted] at observer
      rw [same, counted] at signedBy
      exact ⟨observer, heard _ hears, _, voting.held, signedBy⟩
    · exact (entries _ _ voting.found).counted sender vote found
  | accept ctx waiting found empty =>
    have voting : Entries (fun _ => Evidence su keys _)
        { ob with round := { ob.round with roundState := .blockVoteState } } := entries
    refine ⟨observers, voting.put ⟨?_, (entries _ _ found).waiting⟩, queue, blocks, connected⟩
    intro sender vote counted
    obtain ⟨_, _, gen, held, _⟩ := (entries _ _ found).counted sender vote counted
    rw [empty] at held
    cases held
  | proceed _ _ _ kept same =>
    refine ⟨same.ledger ▸ observers, ?_, same.messageQueue ▸ queue, same.blockQ ▸ blocks,
      same.connected ▸ connected⟩
    intro height br' found
    obtain ⟨br, old, votes, waits⟩ := kept height br' found
    exact (entries height br old).congr votes (waits ▸ (entries height br old).waiting)
  | reset =>
    exact ⟨observers, Entries.begun rfl fun _ _ => .new, queue, blocks, connected⟩
  | refuse _ kept => exact ⟨kept.trans observers, entries, queue, blocks, connected⟩
  | connectVoted voting own quorum _ _ connects =>
    have attempted : Ledger.Attempted _ ob.ledger _ :=
      connects ▸ Ledger.connectBlockWithContext_attempted su.cn _ _ ob.ledger
    rw [observers] at quorum
    have backed := (entries _ _ voting.found).backed voting.held own quorum
    exact ⟨attempted.keys.trans observers, entries, queue, blocks,
      List.forall_mem_cons.mpr ⟨backed, connected⟩⟩
  | connectQueued queued connects =>
    have attempted : Ledger.Attempted _ ob.ledger _ :=
      connects ▸ Ledger.connectBlock_attempted su.cn _ none ob.ledger
    obtain ⟨_, valid, _⟩ := Ledger.connectBlock_ok connects
    have backed := backed_of_valid valid observers (blocks _ _ queued)
    exact ⟨attempted.keys.trans observers, entries, queue, blocks,
      List.forall_mem_cons.mpr ⟨backed, connected⟩⟩
  | enqueue key hears listed =>
    exact ⟨observers, entries, queue, forall_get_put blocks (heard _ hears _ listed), connected⟩
  | dequeue fewer =>
    exact ⟨observers, entries, queue, fun key b kept => blocks key b (fewer key b kept), connected⟩

theorem Steady.move (others : Low keys made)
    (filed : ob.Entries FiledEntry) (evident : Evident su keys (ob.Known made) ob)
    (steady : ob.Steady) (move : Move su current ob ob') : ob'.Steady := by
  cases move with
  | note same =>
    refine steady.of_same ?_ ?_ ?_
    · unfold nextHeight
      rw [same.ledger]
    · unfold ballot
      rw [same.roundState, same.blockRoundMap, same.targetHeight]
    · unfold Voted
      rw [same.signed]
      exact fun _ _ voted => voted
  | push | enqueue | dequeue => exact steady.of_same rfl rfl fun _ _ voted => voted
  | refuse height =>
    refine steady.of_same ?_ rfl fun _ _ voted => voted
    unfold nextHeight
    rw [height]
  | sign s other =>
    refine steady.of_same rfl rfl ?_
    rintro height hash ⟨header, generatorSignature, at_height, hashed, signed⟩
    rcases List.mem_cons.mp signed with new | old
    · rw [← new] at other
      cases other
    · exact ⟨header, generatorSignature, at_height, hashed, old⟩
  | @vote br gen voting =>
    have entry := filed _ br voting.found
    have target := entry.filed gen voting.held
    refine steady.recast signing.hash_injective ?_ ?_
    · rw [target]
      exact ballot_voting voting
    · rw [target]
      exact entry.room
  | wait found same =>
    exact steady.of_same rfl (ballot_put found same.blockGenMessage) fun _ _ voted => voted
  | tally voting => exact steady.of_same rfl (ballot_put voting.found rfl) fun _ _ voted => voted
  | @accept br gen _ ctx waiting found _ height valid =>
    have idle : ob.ballot = none := ballot_idle (by rw [waiting]; nofun)
    have next := (Store.validateHeader_ok valid).2.2.2.2
    refine steady.stand gen.block.header.hash ?_ rfl rfl ?_
    · intro other
      rw [idle]
      nofun
    · refine (ballot_voting ⟨rfl, get_put_self _ _ _, rfl⟩).trans ?_
      rw [nextHeight, ← next, height]
      rfl
  | proceed before after _ _ same =>
    refine steady.release ?_ ?_ same.signed (ballot_idle after)
    · intro hash
      rw [ballot_idle before]
      nofun
    · unfold nextHeight
      rw [same.ledger]
  | turn fails behind =>
    refine steady.release (not_ballot_next fun _ target => absurd target behind) rfl rfl ?_
    exact ballot_idle nofun
  | reset resetStat free =>
    exact steady.release (not_ballot_next free) rfl rfl (ballot_idle nofun)
  | @connectVoted br gen b header _ _ voting own _ same valid connects =>
    have entry := filed _ br voting.found
    have attempted : Ledger.Attempted _ ob.ledger _ :=
      connects ▸ Ledger.connectBlockWithContext_attempted su.cn _ _ ob.ledger
    have checked : header = b.header := signing.hash_injective same
    rw [checked] at valid
    refine steady.join (Store.validateHeader_ok valid).2.2.2.2 ?_ attempted.moved
    rw [own, entry.filed gen voting.held]
    exact entry.room
  | connectQueued queued connects =>
    obtain ⟨header, signatures, _⟩ := Ledger.connectBlock_ok connects
    have attempted : Ledger.Attempted _ ob.ledger _ :=
      connects ▸ Ledger.connectBlock_attempted su.cn _ none ob.ledger
    have backed := backed_of_valid signatures evident.observers (evident.blocks _ _ queued)
    exact steady.join (Store.validateHeader_ok header).2.2.2.2 (backed.low signing steady others)
      attempted.moved

theorem Sound.moves (others : Low keys made) (sound : Sound su keys made ob)
    (heard : ∀ m, current = some m → Heard su keys (ob.Known made) m)
    (moves : Moves su current ob ob') : Sound su keys made ob' := by
  -- The message that is handled stays known while the observer moves.
  have both : Sound su keys made ob' ∧
      ∀ m, current = some m → Heard su keys (ob'.Known made) m := by
    induction moves with
    | refl => exact ⟨sound, heard⟩
    | tail _ move ih =>
      obtain ⟨sound, heard⟩ := ih
      refine ⟨⟨filedEntries_move sound.filed move, sound.evident.move signing heard move,
        sound.steady.move signing others sound.filed sound.evident move⟩, ?_⟩
      exact fun m same => (heard m same).mono (known_move move)
  exact both.1

theorem Sound.step (others : Low keys made)
    (sound : Sound su keys made ob) (amb : Ambient) (input : Input Tx)
    (unforged : ∀ m, input.message = some m → Heard su keys (ob.Known made) m) :
    Sound su keys made (ob.step su amb input) := by
  have filed : ob.Filed := fun br gen found held => (sound.filed _ br found).filed gen held
  have silent : ∀ m, none = some m → Heard su keys (ob.Known made) m := fun _ none => nomatch none
  cases step_cases su amb input filed with
  | moves run => exact sound.moves signing others silent run
  | @handles item rest queued run =>
    have heard := sound.evident.queue
    rw [queued, List.forall_mem_cons] at heard
    refine (sound.requeue heard.2).moves signing others ?_ run
    intro m same
    cases same
    exact heard.1
  | @receives item brings run =>
    have pushed : Sound su keys made (ob.push item) :=
      sound.requeue (forall_mem_concat sound.evident.queue (unforged _ brings))
    exact pushed.moves signing others silent run

end ObserverNode

end Fleta.Pof
