import Fleta.ObserverInstances

/-!
# Agreement of the observers

Any number of observers start from their chains and take steps in any order. What arrives
at an observer may be anything, at any time and any number of times, as long as it holds
no signature of an observer that this observer has not made. Then the observers agree on
the header of every height.
-/

namespace Fleta.Pof

variable {Acc Ev Tx : Type}

open ObserverNode

/-- The observers by their keys. -/
abbrev Net (Acc Ev Tx : Type) := PublicHash → ObserverNode Acc Ev Tx

namespace Net

section Lawful

variable [HashFunction] [HeaderCodec] [Codec] [MessageCodec]

def Made (net : Net Acc Ev Tx) (signer : PublicHash) (digest : Hash256) : Prop :=
  ∃ s ∈ (net signer).signed, s.digest = digest

def Unforged (su : Setup Acc Ev Tx) (keys : SortedMap PublicHash Bool) (net : Net Acc Ev Tx)
    (sigs : List Signature) : Prop :=
  ∀ sig ∈ sigs, Genuine su keys net.Made sig

def Start (keys : SortedMap PublicHash Bool) (net : Net Acc Ev Tx) : Prop :=
  ∀ key, keys.has key = true → ∃ ledger : Ledger Tx,
    ledger.cs.observerKeyMap = keys ∧ net key = .new key ledger

/-- A block with valid signatures of a majority of the observers, none of them forged. -/
def Certified (su : Setup Acc Ev Tx) (keys : SortedMap PublicHash Bool) (net : Net Acc Ev Tx)
    (b : Block Tx) : Prop :=
  Unforged su keys net b.signatures ∧
    ∃ signers, Voting.Majority (keys.eachAll.map Prod.fst) signers ∧
      ∀ signer ∈ signers, ∃ generatorSignature, ∃ sig ∈ b.signatures,
        su.cn.recoverPublicHash (BlockSign.hash ⟨b.header.hash, generatorSignature⟩) sig = .ok signer

def Lawful (su : Setup Acc Ev Tx) (keys : SortedMap PublicHash Bool) (net : Net Acc Ev Tx) : Prop :=
  ∀ key, keys.has key = true → (net key).myPublicHash = key ∧ Sound su keys net.Made (net key)

variable {su : Setup Acc Ev Tx} {keys : SortedMap PublicHash Bool} {net : Net Acc Ev Tx}

theorem sound_new {key : PublicHash} {ledger : Ledger Tx} {made : PublicHash → Hash256 → Prop}
    (same : ledger.cs.observerKeyMap = keys) :
    Sound su keys made (ObserverNode.new key ledger : ObserverNode Acc Ev Tx) where
  filed := Entries.begun rfl fun height room => ⟨room, nofun⟩
  evident := .new same
  steady := by
    have unvoted : ∀ height hash,
        ¬(ObserverNode.new key ledger : ObserverNode Acc Ev Tx).Voted height hash := by
      rintro height hash ⟨_, _, _, _, signed⟩
      exact absurd signed List.not_mem_nil
    have idle : (ObserverNode.new key ledger : ObserverNode Acc Ev Tx).ballot = none :=
      ballot_idle nofun
    constructor
    · rw [idle]
      exact (Voting.Disciplined.fresh _).of_votes unvoted
    · exact fun height hash voted => absurd voted (unvoted height hash)

theorem lawful_start (start : Start keys net) : Lawful su keys net := by
  intro key observer
  obtain ⟨ledger, same, new⟩ := start key observer
  rw [new]
  exact ⟨rfl, sound_new same⟩

theorem voted_of_made (signing : Signing su keys) {signer : PublicHash} {header : Header}
    {generatorSignature : Signature}
    (made : net.Made signer (BlockSign.hash ⟨header.hash, generatorSignature⟩)) :
    (net signer).Voted header.height.toNat header.hash := by
  obtain ⟨s, signed, same⟩ := made
  have voted : s = .blockSign ⟨header.hash, generatorSignature⟩ := signing.digest_injective same
  exact ⟨header, generatorSignature, rfl, rfl, voted ▸ signed⟩

namespace Lawful

theorem low (signing : Signing su keys) (lawful : Lawful su keys net) : Low keys net.Made :=
  fun signer _ _ observer made =>
    (lawful signer observer).2.steady.low _ _ (voted_of_made signing made)

variable {key : PublicHash}

theorem made_of_known (lawful : Lawful su keys net) (observer : keys.has key = true)
    (signer : PublicHash) (digest : Hash256) (known : (net key).Known net.Made signer digest) :
    net.Made signer digest := by
  rcases known with made | ⟨self, made⟩
  · exact made
  · rw [(lawful key observer).1] at self
    exact self ▸ made

theorem single (lawful : Lawful su keys net) (observer : keys.has key = true)
    {height : Nat} {hash hash' : Hash256} (left : (net key).Voted height hash)
    (right : (net key).Voted height hash') : hash = hash' :=
  (lawful key observer).2.steady.votes.single height hash hash' left right

theorem elected_of_backed (signing : Signing su keys) {b : Block Tx}
    (backed : Backed keys net.Made b) :
    Voting.Elected (keys.eachAll.map Prod.fst) (fun key => (net key).Voted) b.header.height.toNat
      b.header.hash := by
  obtain ⟨voters, majority, signed⟩ := backed
  refine ⟨voters, majority, fun voter listed => ?_⟩
  obtain ⟨generatorSignature, made⟩ := signed voter listed
  exact voted_of_made signing made

/-- Two blocks of one height that are backed have the same hash: a common voter has voted
for both. -/
theorem backed_unique (signing : Signing su keys) (lawful : Lawful su keys net) {b b' : Block Tx}
    (left : Backed keys net.Made b) (right : Backed keys net.Made b')
    (height : b.header.height = b'.header.height) : b.header.hash = b'.header.hash := by
  have first := elected_of_backed signing left
  rw [height] at first
  refine Voting.elected_unique ?_ first (elected_of_backed signing right)
  intro key listed _ _ _ one other
  rw [← SortedMap.has_iff_key_visited, ← SortedMap.has_eq] at listed
  exact lawful.single listed one other

end Lawful

theorem Certified.backed {b : Block Tx} (certified : Certified su keys net b) :
    Backed keys net.Made b := by
  obtain ⟨unforged, signers, majority, recovered⟩ := certified
  refine ⟨signers, majority, fun signer listed => ?_⟩
  obtain ⟨generatorSignature, sig, carried, found⟩ := recovered signer listed
  refine ⟨generatorSignature, unforged sig carried _ _ found ?_⟩
  rw [SortedMap.has_eq, SortedMap.has_iff_key_visited]
  exact majority.within signer listed

omit [HeaderCodec] in
theorem heard_of_unforged {m : Message Tx} (unforged : Unforged su keys net m.signatures) :
    Heard su keys net.Made m := by
  cases m with
  | blockVote msg => exact unforged _ (by simp [Message.signatures])
  | blocks list =>
    intro b listed sig carried
    exact unforged sig (List.mem_flatMap.mpr ⟨b, listed, carried⟩)
  | _ => exact trivial

end Lawful

variable [Account Acc] [Event Ev] [Base58] [HashFunction] [Msgpack] [HeaderCodec]
  [AccountCodec Acc] [TxOutCodec] [EventCodec Ev] [FormulatorAccount Acc] [Codec] [MessageCodec]
  [Transaction Acc Ev Tx]

inductive Step (su : Setup Acc Ev Tx) (keys : SortedMap PublicHash Bool) :
    Net Acc Ev Tx → Net Acc Ev Tx → Prop
  | step {net : Net Acc Ev Tx} (key : PublicHash) (amb : Ambient) (input : Input Tx)
      (observer : keys.has key = true)
      (unforged : ∀ m, input.message = some m → Unforged su keys net m.signatures) :
      Step su keys net (Function.update net key ((net key).step su amb input))

abbrev Run (su : Setup Acc Ev Tx) (keys : SortedMap PublicHash Bool) :
    Net Acc Ev Tx → Net Acc Ev Tx → Prop :=
  Relation.ReflTransGen (Step su keys)

variable {su : Setup Acc Ev Tx} {keys : SortedMap PublicHash Bool} {net net' : Net Acc Ev Tx}

theorem Lawful.step (signing : Signing su keys) (lawful : Lawful su keys net)
    (step : Step su keys net net') : Lawful su keys net' := by
  cases step with
  | step key amb input observer unforged =>
    obtain ⟨own, sound⟩ := lawful key observer
    have filed : (net key).Filed := fun br gen found held =>
      (sound.filed _ br found).filed gen held
    obtain ⟨me, kept⟩ := signed_step su amb input filed
    have more : ∀ signer digest, net.Made signer digest →
        Made (Function.update net key ((net key).step su amb input)) signer digest := by
      rintro signer digest ⟨s, signed, same⟩
      refine ⟨s, ?_, same⟩
      rw [Function.update_apply]
      split
      · rename_i self
        exact kept s (self ▸ signed)
      · exact signed
    have heard : ∀ m, input.message = some m → Heard su keys ((net key).Known net.Made) m :=
      fun m brings => (heard_of_unforged (unforged m brings)).mono fun _ _ => .inl
    have stepped := sound.step signing (lawful.low signing) amb input heard
    intro other listed
    rw [Function.update_apply]
    split
    · rename_i self
      exact ⟨me.trans (own.trans self.symm), stepped.mono more⟩
    · exact ⟨(lawful other listed).1, (lawful other listed).2.mono more⟩

theorem Lawful.run (signing : Signing su keys) (lawful : Lawful su keys net)
    (run : Run su keys net net') : Lawful su keys net' := by
  induction run with
  | refl => exact lawful
  | tail _ step ih => exact ih.step signing step

/-- In every run of observers that sign nothing else and whose signatures cannot be
forged, an observer signs headers of one hash for a height, two certified blocks of a
height have the same hash, and no two observers connect different headers of a height. -/
theorem observers_agree (signing : Signing su keys) (start : Start keys net)
    (run : Run su keys net net') :
    (∀ key, keys.has key = true → ∀ (header header' : Header) (sig sig' : Signature),
      .blockSign ⟨header.hash, sig⟩ ∈ (net' key).signed →
      .blockSign ⟨header'.hash, sig'⟩ ∈ (net' key).signed →
      header.height = header'.height → header.hash = header'.hash) ∧
    (∀ b b' : Block Tx, Certified su keys net' b → Certified su keys net' b' →
      b.header.height = b'.header.height → b.header.hash = b'.header.hash) ∧
    (∀ key key', keys.has key = true → keys.has key' = true →
      ∀ b ∈ (net' key).connected, ∀ b' ∈ (net' key').connected,
        b.header.height = b'.header.height → b.header = b'.header) := by
  have lawful : Lawful su keys net' := (lawful_start start).run signing run
  refine ⟨?_, ?_, ?_⟩
  · intro key observer header header' sig sig' left right height
    refine lawful.single observer ⟨header, sig, rfl, rfl, left⟩ ⟨header', sig', ?_, rfl, right⟩
    rw [height]
  · intro b b' left right height
    exact lawful.backed_unique signing left.backed right.backed height
  · intro key key' observer observer' b joined b' joined' height
    refine signing.hash_injective (lawful.backed_unique signing ?_ ?_ height)
    · exact ((lawful key observer).2.evident.connected b joined).mono
        (lawful.made_of_known observer)
    · exact ((lawful key' observer').2.evident.connected b' joined').mono
        (lawful.made_of_known observer')

/-- The observer has connected the heights after `start` one after the other. -/
def Numbered (start : UInt32) (ob : ObserverNode Acc Ev Tx) : Prop :=
  ob.ledger.store.height = start + .ofNat ob.connected.length ∧
    ∀ i b, ob.connected.reverse[i]? = some b → b.header.height = start + .ofNat (i + 1)

theorem Numbered.moves {ob ob' : ObserverNode Acc Ev Tx} {current : Option (Message Tx)}
    {height : UInt32} (signing : Signing su keys) (numbered : Numbered height ob)
    (moves : Moves su current ob ob') : Numbered height ob' := by
  have joins : ∀ {ob : ObserverNode Acc Ev Tx} {b ledger}, Numbered height ob →
      ob.ledger.store.validateHeader b.header = .ok () →
      Ledger.Attempted b ob.ledger (.ok (), ledger) → Numbered height (ob.join b ledger) := by
    intro ob b ledger numbered valid attempted
    have next : b.header.height = height + .ofNat (ob.connected.length + 1) := by
      rw [(Store.validateHeader_ok valid).2.2.2.2, numbered.1, UInt32.add_assoc]
      simp
    refine ⟨attempted.moved.trans next, fun i found listed => ?_⟩
    change (b :: ob.connected).reverse[i]? = some found at listed
    rw [List.reverse_cons, List.getElem?_append, List.getElem?_singleton, List.length_reverse]
      at listed
    split at listed
    · exact numbered.2 i found listed
    split at listed
    · cases listed
      rw [next]
      congr 2
      omega
    · cases listed
  induction moves with
  | refl => exact numbered
  | @tail ob _ _ move ih =>
    cases move with
    | note same | proceed _ _ _ _ same =>
      rwa [Numbered, same.ledger, same.connected]
    | refuse height => exact ⟨height.trans ih.1, ih.2⟩
    | @connectVoted _ _ b header ctx _ _ _ _ same valid connects =>
      have checked : header = b.header := signing.hash_injective same
      exact joins ih (checked ▸ valid)
        (connects ▸ Ledger.connectBlockWithContext_attempted su.cn b ctx ob.ledger)
    | @connectQueued b _ _ _ connects =>
      exact joins ih (Ledger.connectBlock_ok connects).1
        (connects ▸ Ledger.connectBlock_attempted su.cn b none ob.ledger)
    | _ => exact ih

theorem numbered_run {key : PublicHash} (signing : Signing su keys) (start : Start keys net)
    (run : Run su keys net net') (observer : keys.has key = true) :
    Numbered (net key).ledger.store.height (net' key) := by
  induction run with
  | refl =>
    obtain ⟨ledger, _, new⟩ := start key observer
    rw [new]
    exact ⟨(UInt32.add_zero _).symm, nofun⟩
  | @tail mid _ before step ih =>
    obtain ⟨_, sound⟩ := (lawful_start start).run signing before key observer
    have filed : (mid key).Filed := fun br gen found held =>
      (sound.filed _ br found).filed gen held
    cases step with | step other amb input =>
    rw [Function.update_apply]
    split
    · rename_i self
      subst self
      cases step_cases su amb input filed with
      | moves run => exact ih.moves signing run
      | handles _ run | receives _ run =>
        refine Numbered.moves signing ?_ run
        exact ih
    · exact ih

/-- Observers that start at one height never fork: a majority has signed every block they
connect, and the blocks that two of them connect in the same place have one header. -/
theorem observers_never_fork (signing : Signing su keys) (start : Start keys net)
    (run : Run su keys net net') (key key' : PublicHash) (observer : keys.has key = true)
    (observer' : keys.has key' = true)
    (level : (net key).ledger.store.height = (net key').ledger.store.height) :
    (∀ b ∈ (net' key).connected, Backed keys net'.Made b) ∧
      ∀ (i : Nat) (b b' : Block Tx), (net' key).connected.reverse[i]? = some b →
        (net' key').connected.reverse[i]? = some b' → b.header = b'.header := by
  have lawful : Lawful su keys net' := (lawful_start start).run signing run
  have backed : ∀ key, keys.has key = true → ∀ b ∈ (net' key).connected,
      Backed keys net'.Made b := fun key observer b joined =>
    ((lawful key observer).2.evident.connected b joined).mono (lawful.made_of_known observer)
  refine ⟨backed key observer, fun i b b' listed listed' => ?_⟩
  have height := (numbered_run signing start run observer).2 i b listed
  have height' := (numbered_run signing start run observer').2 i b' listed'
  rw [← level, ← height] at height'
  exact signing.hash_injective (lawful.backed_unique signing
    (backed key observer b (List.mem_reverse.mp (List.mem_of_getElem? listed)))
    (backed key' observer' b' (List.mem_reverse.mp (List.mem_of_getElem? listed'))) height'.symm)

end Net

end Fleta.Pof

namespace Fleta.ObserverInstances

open Pof ObserverNode Instances

abbrev SomeNet := Net SingleAccount PlainEvent SetData

def threeObservers : SomeNet := fun key => .new key firstLedger

def isMade (net : SomeNet) (sig : Signature) : Bool :=
  let (key, rest) := unfield sig
  let (_, digest) := unfield rest
  !threeKeys.has key || (net key).signed.any fun s => s.digest == digest

theorem genuine_of_isMade {net : SomeNet} {sig : Signature} (made : isMade net sig = true) :
    Genuine observerSetup threeKeys net.Made sig := by
  intro digest signer recovered observer
  have read : recoverKey digest sig = .ok signer := recovered
  unfold recoverKey at read
  dsimp only at read
  split at read
  · rename_i same
    cases read
    unfold isMade at made
    dsimp only at made
    rw [observer, same] at made
    simpa [Net.Made] using made
  · cases read

def play : List (PublicHash × Input SetData) → SomeNet → Option SomeNet
  | [], net => some net
  | (key, input) :: rest, net =>
    if threeKeys.has key && (input.message.elim true fun m => m.signatures.all (isMade net)) then
      play rest (Function.update net key ((net key).step observerSetup someAmbient input))
    else none

theorem run_of_play {events : List (PublicHash × Input SetData)} {net net' : SomeNet}
    (played : play events net = some net') : Net.Run observerSetup threeKeys net net' := by
  induction events generalizing net with
  | nil =>
    cases played
    exact .refl
  | cons event rest ih =>
    unfold play at played
    split at played
    · rename_i allowed
      rw [Bool.and_eq_true] at allowed
      refine .head (.step event.1 someAmbient event.2 allowed.1 ?_) (ih played)
      intro m brings sig carried
      have made := allowed.2
      rw [brings, Option.elim_some, List.all_eq_true] at made
      exact genuine_of_isMade (made sig carried)
    · cases played

def firstRound : List (PublicHash × Input SetData) := [
  ([1], .voteTimer), ([2], .voteTimer), ([3], .voteTimer),
  ([1], .observerRecv [2] (roundVoteOf [2])), ([1], .observerRecv [3] (roundVoteOf [3])),
  ([2], .observerRecv [1] (roundVoteOf [1])), ([2], .observerRecv [3] (roundVoteOf [3])),
  ([1], .queueTimer), ([1], .queueTimer), ([1], .queueTimer),
  ([2], .queueTimer), ([2], .queueTimer), ([2], .queueTimer),
  ([1], .observerRecv [2] (roundVoteAckOf [2])), ([2], .observerRecv [1] (roundVoteAckOf [1])),
  ([1], .queueTimer), ([1], .queueTimer), ([2], .queueTimer), ([2], .queueTimer),
  ([2], .formulatorRecv (.blockGen (firstBlockGen []))), ([2], .queueTimer),
  ([1], .formulatorRecv (.blockGen (firstBlockGen []))), ([1], .queueTimer), ([1], .queueTimer),
  ([1], .observerRecv [2] (blockVoteOf [] [2])), ([1], .queueTimer)]

theorem play_firstRound :
    ((play firstRound threeObservers).any fun net => (net [1]).connected.length == 1) = true := by
  decide +kernel

/-- Three observers, the first of which has connected a block. -/
theorem three_observers_agree : ∃ net : SomeNet,
    Net.Run observerSetup threeKeys threeObservers net ∧ (net [1]).connected.length = 1 ∧
      ∀ key key', threeKeys.has key = true → threeKeys.has key' = true →
        ∀ b ∈ (net key).connected, ∀ b' ∈ (net key').connected,
          b.header.height = b'.header.height → b.header = b'.header := by
  have start : Net.Start threeKeys threeObservers := fun key _ => ⟨firstLedger, rfl, rfl⟩
  have played := play_firstRound
  rw [Option.any_eq_true] at played
  obtain ⟨net, found, joined⟩ := played
  have run := run_of_play found
  exact ⟨net, run, by simpa using joined,
    (Net.observers_agree (observerSetup_signing threeKeys) start run).2.2⟩

theorem three_observers_never_fork : ∃ net : SomeNet, (net [1]).connected.length = 1 ∧
    ∀ b ∈ (net [1]).connected, Backed threeKeys net.Made b := by
  obtain ⟨net, found, joined⟩ := (Option.any_eq_true _ _).mp play_firstRound
  exact ⟨net, by simpa using joined, (Net.observers_never_fork (observerSetup_signing threeKeys)
    (fun _ _ => ⟨firstLedger, rfl, rfl⟩) (run_of_play found) [1] [2] rfl rfl rfl).1⟩

end Fleta.ObserverInstances
