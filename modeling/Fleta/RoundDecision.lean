import Fleta.ObserverInstances
import Fleta.TwofoldMajority

/-!
# The decision of a round

When an acknowledgement of a round vote comes in, the observer visits the acknowledgements
it has in the order of a map. It counts the timeout counts and the public hashes they
carry apart, and decides for the first acknowledgement both of whose values have reached a
majority. The decision is the same in every order exactly if a timeout count and a public
hash that have a majority each have one together.
-/

namespace Fleta.Pof

open TwofoldMajority SortedMap RoundVoteAck

variable {Acc Ev Tx : Type}

section Range

variable {Value : Type} {map : SortedMap PublicHash Value}

theorem Ambient.range_eq {amb : Ambient} {entries : List (PublicHash × Value)}
    (order : amb.order (map.eachAll.map Prod.fst) = entries.map Prod.fst)
    (listed : ∀ entry ∈ entries, map.get entry.1 = some entry.2) : amb.range map = entries := by
  unfold range
  rw [order]
  clear order
  induction entries with
  | nil => rfl
  | cons entry rest ih =>
    rw [List.map_cons, List.filterMap_cons, listed entry List.mem_cons_self, Option.map_some]
    exact congrArg (entry :: ·) (ih fun other later => listed other (List.mem_cons_of_mem _ later))

theorem Ambient.range_perm (amb : Ambient) (map : SortedMap PublicHash Value) :
    (amb.range map).Perm map.eachAll := by
  refine (eachAll_perm (amb.range_nodup map) ?_).symm
  intro key value
  exact (@Ambient.mem_range _ amb map (key, value)).symm

def visiting (first : PublicHash → Bool) : Ambient where
  now := 0
  formulatorMap := []
  formulatorHeight _ := none
  peers := []
  requested _ := false
  order keys := keys.filter first ++ keys.filter fun key => !first key
  order_perm keys := List.filter_append_perm first keys

theorem visiting_range {first : PublicHash → Bool} {property : PublicHash × Value → Bool}
    (same : ∀ entry ∈ map.eachAll, first entry.1 = property entry) :
    (visiting first).range map =
      map.eachAll.filter property ++ map.eachAll.filter fun entry => !property entry := by
  apply Ambient.range_eq
  · change (map.eachAll.map Prod.fst).filter first ++ (map.eachAll.map Prod.fst).filter _ = _
    rw [List.filter_map, List.filter_map, List.map_append]
    congr 2
    · exact List.filter_congr same
    · exact List.filter_congr fun entry listed => congrArg (!·) (same entry listed)
  · intro entry listed
    rw [List.mem_append, List.mem_filter, List.mem_filter] at listed
    rw [← mem_eachAll]
    rcases listed with found | found
    · exact found.1
    · exact found.1

end Range

namespace ObserverNode

def collectedAcks (ob : ObserverNode Acc Ev Tx) : List RoundVoteAck :=
  ob.round.roundVoteAckMessageMap.eachAll.map fun entry => entry.2.roundVoteAck

def ackQuorum (ob : ObserverNode Acc Ev Tx) : Nat := ob.ledger.cs.observerKeyMap.len / 2 + 1

theorem chooseMin_eq (quorum : Nat) (seen acks : List RoundVoteAck) :
    chooseMin quorum seen acks =
      choose timeoutCount publicHash quorum seen acks := by
  induction acks generalizing seen with
  | nil => rfl
  | cons ack rest ih =>
    rw [chooseMin, choose, ih]
    rfl

def decision (amb : Ambient) (ob : ObserverNode Acc Ev Tx) : Option (UInt32 × PublicHash) :=
  let round := (ob.countRoundVoteAcks amb).2.round
  if round.roundState = .blockWaitState then
    round.minRoundVoteAck.map fun ack => (ack.timeoutCount, ack.publicHash)
  else none

variable (ack : RoundVoteAck) (ob : ObserverNode Acc Ev Tx)

theorem requestBlocks_round : (ob.requestBlocks ack).round = ob.round := by
  unfold requestBlocks
  split <;> rfl

theorem takeWaiting_round (formulator : Address) (ob : ObserverNode Acc Ev Tx) :
    (ob.takeWaiting formulator).round.roundState = ob.round.roundState ∧
      (ob.takeWaiting formulator).round.minRoundVoteAck = ob.round.minRoundVoteAck := by
  unfold takeWaiting
  split
  · exact ⟨rfl, rfl⟩
  · split
    · split <;> exact ⟨rfl, rfl⟩
    · exact ⟨rfl, rfl⟩

theorem enterBlockWait_round :
    (ob.enterBlockWait ack).round.roundState = .blockWaitState ∧
      (ob.enterBlockWait ack).round.minRoundVoteAck = some ack := by
  unfold enterBlockWait
  rw [(takeWaiting_round _ _).1, (takeWaiting_round _ _).2, requestBlocks_round]
  exact ⟨rfl, rfl⟩

theorem decision_eq (amb : Ambient) {ob : ObserverNode Acc Ev Tx}
    (acking : ob.round.roundState = .roundVoteAckState) :
    ob.decision amb = outcome timeoutCount publicHash ob.ackQuorum
      ((amb.range ob.round.roundVoteAckMessageMap).map fun entry => entry.2.roundVoteAck) := by
  have undecided : ob.round.roundState ≠ .blockWaitState := by
    rw [acking]
    decide
  unfold decision countRoundVoteAcks outcome
  dsimp only
  rw [chooseMin_eq]
  split
  · cases chosen : choose timeoutCount publicHash ob.ackQuorum []
        ((amb.range ob.round.roundVoteAckMessageMap).map fun entry => entry.2.roundVoteAck) with
    | none =>
      rw [ackQuorum] at chosen
      rw [chosen]
      exact if_neg undecided
    | some ack =>
      rw [ackQuorum] at chosen
      rw [chosen]
      rw [if_pos (ob.enterBlockWait_round ack).1, (ob.enterBlockWait_round ack).2]
  · rename_i few
    refine (Option.eq_none_iff_forall_ne_some.mpr ?_).symm
    rintro ⟨timeoutCount, publicHash⟩ decided
    have reached := (outcome_some decided).1
    have bound := Nat.le_trans reached List.countP_le_length
    rw [List.length_map, amb.length_range] at bound
    exact few bound

theorem collectedAcks_few {ob : ObserverNode Acc Ev Tx}
    (senders : ∀ key, (ob.round.roundVoteAckMessageMap.get key).isSome →
      ob.ledger.cs.observerKeyMap.has key) :
    ob.collectedAcks.length < 2 * ob.ackQuorum := by
  have observers : ob.round.roundVoteAckMessageMap.eachAll.map Prod.fst ⊆
      ob.ledger.cs.observerKeyMap.eachAll.map Prod.fst := by
    intro key listed
    rw [← has_iff_key_visited] at listed ⊢
    rw [← has_eq]
    exact senders key listed
  have bound := (List.subperm_of_subset (each_all_keys_nodup _) observers).length_le
  rw [List.length_map, List.length_map, length_eachAll ob.ledger.cs.observerKeyMap] at bound
  unfold collectedAcks ackQuorum
  rw [List.length_map]
  omega

def agreeing (timeoutCount : UInt32) (publicHash : PublicHash) (ob : ObserverNode Acc Ev Tx)
    (key : PublicHash) : Bool :=
  (ob.round.roundVoteAckMessageMap.get key).any fun msg =>
    msg.roundVoteAck.timeoutCount == timeoutCount && msg.roundVoteAck.publicHash == publicHash

theorem visiting_acks (first : PublicHash → Bool) (property : RoundVoteAck → Bool)
    (same : ∀ key msg, ob.round.roundVoteAckMessageMap.get key = some msg →
      first key = property msg.roundVoteAck) :
    ((visiting first).range ob.round.roundVoteAckMessageMap).map (fun entry => entry.2.roundVoteAck) =
      ob.collectedAcks.filter property ++ ob.collectedAcks.filter fun ack => !property ack := by
  have visits := @visiting_range _ ob.round.roundVoteAckMessageMap first
    (fun entry => property entry.2.roundVoteAck) fun entry listed =>
      same entry.1 entry.2 ((mem_eachAll _ _ _).mp listed)
  rw [visits, List.map_append, collectedAcks, List.filter_map, List.filter_map]
  rfl

/-- The decision does not depend on the order in which the acknowledgements are visited
exactly if a timeout count and a public hash with a majority each have one together. -/
theorem decision_order_independent_iff {ob : ObserverNode Acc Ev Tx}
    (acking : ob.round.roundState = .roundVoteAckState)
    (senders : ∀ key, (ob.round.roundVoteAckMessageMap.get key).isSome →
      ob.ledger.cs.observerKeyMap.has key) :
    (∀ amb amb' : Ambient, ob.decision amb = ob.decision amb') ↔
      ∀ timeoutCount publicHash,
        ob.ackQuorum ≤ ob.collectedAcks.countP (·.timeoutCount == timeoutCount) →
        ob.ackQuorum ≤ ob.collectedAcks.countP (·.publicHash == publicHash) →
        ob.ackQuorum ≤ ob.collectedAcks.countP fun ack =>
          ack.timeoutCount == timeoutCount && ack.publicHash == publicHash := by
  have few := collectedAcks_few senders
  have orders : ∀ amb : Ambient,
      ((amb.range ob.round.roundVoteAckMessageMap).map fun entry => entry.2.roundVoteAck).Perm
        ob.collectedAcks := fun amb => (amb.range_perm _).map _
  constructor
  · intro independent timeoutCount publicHash left right
    by_contra apart
    have same : ∀ key msg, ob.round.roundVoteAckMessageMap.get key = some msg →
        agreeing timeoutCount publicHash ob key = (msg.roundVoteAck.timeoutCount == timeoutCount &&
          msg.roundVoteAck.publicHash == publicHash) := by
      intro key msg found
      rw [agreeing, found]
      rfl
    have early := ob.visiting_acks (agreeing timeoutCount publicHash ob)
      (fun ack => ack.timeoutCount == timeoutCount && ack.publicHash == publicHash) same
    have late := ob.visiting_acks (fun key => !agreeing timeoutCount publicHash ob key)
      (fun ack => !(ack.timeoutCount == timeoutCount && ack.publicHash == publicHash))
      fun key msg found => congrArg (!·) (same key msg found)
    have missed := outcome_bothFirst few left right (Nat.not_le.mp apart)
    have found := outcome_bothLast few left right
    have decided := independent (visiting (agreeing timeoutCount publicHash ob))
      (visiting fun key => !agreeing timeoutCount publicHash ob key)
    rw [decision_eq _ acking, decision_eq _ acking, early, late] at decided
    simp only [Bool.not_not] at decided
    exact found (decided.symm.trans missed)
  · intro shared amb amb'
    have agrees : ∀ amb amb' : Ambient, ∀ values, ob.decision amb = some values →
        ob.decision amb' = some values := by
      intro amb amb' values decided
      have order := orders amb
      rw [decision_eq _ acking] at decided ⊢
      apply outcome_perm ((orders amb').trans order.symm) (order.length_eq ▸ few) _ decided
      intro timeoutCount publicHash left right
      unfold firstCount at left
      unfold secondCount at right
      unfold bothCount
      rw [order.countP_eq] at left right ⊢
      exact shared timeoutCount publicHash left right
    cases decided : ob.decision amb with
    | some values => exact (agrees amb amb' values decided).symm
    | none =>
      cases decided' : ob.decision amb' with
      | none => rfl
      | some values =>
        rw [agrees amb' amb values decided'] at decided
        cases decided

end ObserverNode

end Fleta.Pof

namespace Fleta.ObserverInstances

open Pof Instances

def fiveKeys : SortedMap PublicHash Bool :=
  [[1], [2], [3], [4], [5]].foldl (fun map key => map.put key true) .empty

def fiveLedger : Ledger SetData :=
  { firstLedger with
    cs := {
      maxBlocksPerFormulator := 1
      blocksBySameFormulator := 0
      observerKeyMap := fiveKeys
      rt := ⟨0, [⟨someAddress, [9], 0, []⟩, ⟨Address.new 1 1 1, [8], 0, []⟩]⟩ } }

def ackFor (timeoutCount : UInt32) (publicHash : PublicHash) : RoundVoteAck :=
  let second := timeoutCount = 1
  { firstAck with
    timeoutCount := timeoutCount
    formulator := if second then Address.new 1 1 1 else someAddress
    formulatorPublicHash := if second then [8] else [9]
    publicHash := publicHash }

def ackMessage (key : PublicHash) (ack : RoundVoteAck) : RoundVoteAckMessage :=
  ⟨ack, signWith [] key (Signable.digest (.roundVoteAck ack))⟩

def acknowledged (acks : List (PublicHash × RoundVoteAck)) :
    ObserverNode SingleAccount PlainEvent SetData :=
  let ob := ObserverNode.new [1] fiveLedger
  acks.foldl (fun ob entry =>
      (ob.handleRoundVoteAck observerSetup someAmbient entry.1 (ackMessage entry.1 entry.2)).2)
    { ob with round := { ob.round with roundState := .roundVoteAckState } }

/-- Three acknowledgements have the first timeout count, and three the vote of the first
observer, but only one has both. -/
def splitAcks : ObserverNode SingleAccount PlainEvent SetData :=
  let ob := acknowledged
    [([1], ackFor 0 [1]), ([2], ackFor 0 [2]), ([3], ackFor 0 [2]), ([4], ackFor 1 [1])]
  { ob with round := { ob.round with roundVoteAckMessageMap :=
    ob.round.roundVoteAckMessageMap.put [5] (ackMessage [5] (ackFor 1 [1])) } }

/-- The acknowledgement with both is visited first, or last. -/
theorem splitAcks_decision :
    splitAcks.round.roundVoteAckMessageMap.len = 5 ∧
      splitAcks.decision (visiting (· == [1])) = none ∧
      splitAcks.decision (visiting (· != [1])) = some (0, [1]) := by
  decide +kernel

def jointAcks : ObserverNode SingleAccount PlainEvent SetData :=
  let ob := acknowledged [([1], ackFor 0 [1]), ([2], ackFor 0 [1])]
  { ob with round := { ob.round with roundVoteAckMessageMap :=
    ob.round.roundVoteAckMessageMap.put [3] (ackMessage [3] (ackFor 0 [1])) } }

theorem jointAcks_collected : jointAcks.round.roundState = .roundVoteAckState ∧
    jointAcks.ackQuorum = 3 ∧ jointAcks.collectedAcks = List.replicate 3 (ackFor 0 [1]) := by
  decide +kernel

theorem jointAcks_decision : jointAcks.round.roundState = .roundVoteAckState ∧
    ∀ amb amb' : Ambient, jointAcks.decision amb = jointAcks.decision amb' := by
  have senders : ∀ key, (jointAcks.round.roundVoteAckMessageMap.get key).isSome →
      jointAcks.ledger.cs.observerKeyMap.has key := by
    have keys : (jointAcks.round.roundVoteAckMessageMap.eachAll.map Prod.fst).all fun key =>
        jointAcks.ledger.cs.observerKeyMap.has key := by
      decide +kernel
    intro key collected
    rw [SortedMap.has_iff_key_visited] at collected
    exact List.all_eq_true.mp keys key collected
  refine ⟨jointAcks_collected.1, ?_⟩
  apply (ObserverNode.decision_order_independent_iff jointAcks_collected.1 senders).mpr
  intro timeoutCount publicHash left right
  rw [jointAcks_collected.2.1, jointAcks_collected.2.2] at left right ⊢
  rw [List.countP_replicate] at left right ⊢
  split at left
  · split at right
    · rename_i sameCount sameHash
      rw [if_pos (Bool.and_eq_true_iff.mpr ⟨sameCount, sameHash⟩)]
    · omega
  · omega

end Fleta.ObserverInstances
