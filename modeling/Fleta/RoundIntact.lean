import Fleta.RoundCoherence

/-!
# Every run keeps the round together

Blocks that come from other observers wait in a queue that never holds a genesis, and are
connected one after the other, so that the chain only moves ahead of the round. With the
handlers of the votes this covers every timer and every message, in any order.
-/

namespace Fleta.Pof

open ObserverNode

variable {Acc Ev Tx : Type}

namespace ObserverNode

section Sync

variable [HashFunction] [HeaderCodec] {amb : Ambient} {ob : ObserverNode Acc Ev Tx}

section

omit [HashFunction] [HeaderCodec]

theorem quiet_handleRequest (sender : PublicHash) (msg : RequestMessage) :
    Quiet ob (ob.handleRequest sender msg).2 := by
  unfold handleRequest
  dsimp only
  split
  · exact ⟨rfl, rfl, rfl, rfl⟩
  split <;> exact ⟨rfl, rfl, rfl, rfl⟩

theorem quiet_sendRequestBlockTo (target : PublicHash) (height : UInt32) (count : UInt8)
    (ob : ObserverNode Acc Ev Tx) : Quiet ob (ob.sendRequestBlockTo target height count) := by
  unfold sendRequestBlockTo
  split <;> exact ⟨rfl, rfl, rfl, rfl⟩

end

theorem quiet_handleStatus (sender : PublicHash) (msg : StatusMessage) :
    Quiet ob (ob.handleStatus amb sender msg).2 := by
  unfold handleStatus
  dsimp only
  split
  · apply quiet_foldl
    intro ob base
    unfold requestTen
    dsimp only
    split
    · exact quiet_sendRequestBlockTo sender _ _ ob
    · apply quiet_foldl
      exact fun ob i => quiet_sendRequestBlockTo sender i 1 ob
  split
  · exact ⟨rfl, rfl, rfl, rfl⟩
  split <;> exact ⟨rfl, rfl, rfl, rfl⟩

theorem quiet_addBlock (b : Block Tx) : Quiet ob (ob.addBlock b).2 := by
  unfold addBlock
  split
  all_goals
    split
    · exact ⟨rfl, rfl, rfl, rfl⟩
    · split <;> exact ⟨rfl, rfl, rfl, rfl⟩

variable (list : List (Block Tx))

theorem Coherent.handleBlocks (coherent : ob.Coherent) : (ob.handleBlocks list).2.Coherent := by
  induction list generalizing ob with
  | nil => exact coherent
  | cons b rest ih =>
    have added := coherent.quiet (quiet_addBlock b)
    unfold handleBlocks
    split <;> rename_i answer <;> rw [answer] at added
    · exact added
    · exact ih added

/-- A queued block is not the genesis: `addBlock` compares that one with the chain. -/
def Queued (ob : ObserverNode Acc Ev Tx) : Prop :=
  ∀ key b, ob.blockQ.get key = some b → b.header.height ≠ 0

theorem Queued.addBlock (queued : ob.Queued) (b : Block Tx) : (ob.addBlock b).2.Queued := by
  unfold ObserverNode.addBlock
  split
  · split
    · exact queued
    · split <;> exact queued
  rename_i above
  split
  · refine SortedMap.forall_get_put queued fun zero => ?_
    rw [zero] at above
    exact above UInt32.zero_le
  · split <;> exact queued

theorem Queued.handleBlocks (queued : ob.Queued) : (ob.handleBlocks list).2.Queued := by
  induction list generalizing ob with
  | nil => exact queued
  | cons b rest ih =>
    have added := queued.addBlock b
    unfold handleBlocks
    split <;> rename_i answer <;> rw [answer] at added
    · exact added
    · exact ih added

end Sync

/-- What every handler and timer needs and keeps. -/
structure Intact (ob : ObserverNode Acc Ev Tx) : Prop where
  coherent : ob.Coherent
  queued : ob.Queued
  filed : ob.Entries FiledEntry

theorem Intact.new (key : PublicHash) {ledger : Ledger Tx} (turnOpen : ledger.cs.TurnOpen) :
    (new key ledger : ObserverNode Acc Ev Tx).Intact where
  coherent := .new key turnOpen
  queued := by
    intro height b found
    cases found
  filed := Entries.begun rfl fun height room => ⟨room, nofun⟩

theorem Intact.filedNow {ob : ObserverNode Acc Ev Tx} (intact : ob.Intact) : ob.Filed :=
  fun br gen found held => (intact.filed _ br found).filed gen held

variable [Account Acc] [Event Ev] [Base58] [HashFunction] [Msgpack] [HeaderCodec]
  [AccountCodec Acc] [TxOutCodec] [EventCodec Ev] [FormulatorAccount Acc] [Codec]
  [Transaction Acc Ev Tx] {su : Setup Acc Ev Tx} {amb : Ambient} {ob ob' : ObserverNode Acc Ev Tx}

namespace Coherent

theorem connectQueued (count targetHeight : Nat) (coherent : ob.Coherent) (queued : ob.Queued) :
    (ob.connectQueued su count targetHeight).2.Coherent := by
  induction count generalizing targetHeight ob with
  | zero => exact coherent
  | succ count ih =>
    unfold connectQueued
    split
    · exact coherent.congr rfl rfl rfl rfl rfl
    rename_i b queue popped
    obtain ⟨fewer, first⟩ := popUntil_fewer popped
    have positive : b.header.height ≠ 0 := queued _ b (first b rfl)
    have attempted := Ledger.connectBlock_attempted su.cn b none ob.ledger
    have opened := Ledger.connectBlock_open coherent.turnOpen su.cn b none
    dsimp only
    split
    · rename_i err ledger refused
      rw [refused] at attempted opened
      have same : ledger.store.height = ob.ledger.store.height := attempted.moved
      exact { coherent with target := same ▸ coherent.target, turnOpen := opened }
    · rename_i ledger joined
      rw [joined] at attempted opened
      have moved : ledger.store.height = b.header.height := attempted.moved
      have next : b.header.height = ob.ledger.store.height + 1 :=
        (Store.validateHeader_ok (Ledger.connectBlock_ok joined).1).2.2.2.2
      have higher : ob.ledger.store.height.toNat ≤ ledger.store.height.toNat := by
        rw [moved, next]
        have value := congrArg UInt32.toNat next
        have nonzero : b.header.height.toNat ≠ 0 := fun zero =>
          positive (UInt32.toNat_inj.mp zero)
        rw [UInt32.toNat_add, UInt32.toNat_one] at value ⊢
        have bound := ob.ledger.store.height.toNat_lt
        omega
      apply ih
      · refine ⟨coherent.acknowledged, coherent.held, ?_, opened⟩
        exact Nat.le_trans coherent.target (Nat.succ_le_succ higher)
      · exact fun key other found => queued key other (fewer key other found)

theorem blockTimer (coherent : ob.Coherent) (queued : ob.Queued) :
    (ob.blockTimer su).2.Coherent := by
  have connected : (ob.connectQueued su 101 (ob.ledger.store.height + 1).toNat).2.Coherent :=
    coherent.connectQueued 101 _ queued
  unfold ObserverNode.blockTimer
  split <;> rename_i answer <;> rw [answer] at connected
  · exact connected
  · dsimp only
    split
    · exact connected.quiet ⟨rfl, rfl, rfl, rfl⟩
    · exact connected

end Coherent

variable [MessageCodec]

theorem Queued.moves {current : Option (Message Tx)} (queued : ob.Queued)
    (other : ∀ list, current ≠ some (.blocks list)) (moves : Moves su current ob ob') :
    ob'.Queued := by
  induction moves with
  | refl => exact queued
  | tail _ move ih =>
    cases move with
    | note same | proceed _ _ _ _ same => exact fun key b found => ih key b (same.blockQ ▸ found)
    | enqueue _ heard => exact absurd heard (other _)
    | dequeue fewer => exact fun key b found => ih key b (fewer key b found)
    | push | sign | vote | wait | tally | accept | turn | reset | refuse | connectVoted
    | connectQueued => exact ih

namespace Coherent

theorem handleObserverMessage (coherent : ob.Coherent) (filed : ob.Filed) (item : MessageItem Tx) :
    (ob.handleObserverMessage su amb item).2.Coherent := by
  unfold ObserverNode.handleObserverMessage
  split
  · exact coherent.handleRoundVote item.publicHash _
  · exact coherent.handleRoundVoteAck item.publicHash _
  · exact coherent.handleBlockGen _ item.packet
  · exact coherent.handleBlockVote filed item.publicHash _
  · exact coherent.quiet (quiet_handleRequest item.publicHash _)
  · exact coherent.quiet (quiet_handleStatus item.publicHash _)
  · exact coherent.handleBlocks _
  · exact coherent
  · exact coherent
  · exact coherent

end Coherent

theorem step_outcome (su : Setup Acc Ev Tx) (amb : Ambient) (input : Input Tx)
    (ob : ObserverNode Acc Ev Tx) :
    ob.step su amb input = ob ∨ ob.step su amb input = (ob.handleInput su amb input).2 ∨
      ob.step su amb input = (ob.handleInput su amb input).2.halt := by
  unfold step
  split
  · exact .inl rfl
  split <;> rename_i answer <;> rw [answer]
  · exact .inr (.inr rfl)
  · exact .inr (.inl rfl)

namespace Intact

section

variable (intact : ob.Intact)

include intact

variable (input : Input Tx)

theorem coherent_handleInput : (ob.handleInput su amb input).2.Coherent := by
  cases input with
  | blockTimer => exact intact.coherent.blockTimer intact.queued
  | voteTimer => exact intact.coherent.voteTimer
  | queueTimer =>
    dsimp only [handleInput]
    unfold queueTimer
    split
    · exact intact.coherent
    · rename_i item rest queued
      have popped : Coherent { ob with messageQueue := rest } :=
        intact.coherent.congr rfl rfl rfl rfl rfl
      exact popped.handleObserverMessage intact.filedNow item
  | observerRecv sender m =>
    dsimp only [handleInput]
    unfold onObserverRecv
    split <;> exact intact.coherent.push _
  | formulatorRecv m =>
    dsimp only [handleInput]
    unfold onFormulatorRecv
    split
    · exact intact.coherent.push _
    · exact intact.coherent
    · exact intact.coherent
    · exact intact.coherent

theorem queued_handleInput : (ob.handleInput su amb input).2.Queued := by
  have timer : ∀ {ob'}, Moves su none ob ob' → ob'.Queued :=
    fun moves => intact.queued.moves (fun list => (Option.some_ne_none (Message.blocks list)).symm) moves
  cases input with
  | blockTimer => exact timer moves_blockTimer
  | voteTimer => exact timer moves_voteTimer
  | queueTimer =>
    dsimp only [handleInput]
    unfold queueTimer
    split
    · exact intact.queued
    · rename_i item rest _
      have popped : Queued { ob with messageQueue := rest } := intact.queued
      by_cases blocks : ∃ list, item.message = .blocks list
      · obtain ⟨list, message⟩ := blocks
        rw [handleObserverMessage, message]
        exact popped.handleBlocks list
      · refine popped.moves ?_ (moves_handleObserverMessage rfl intact.filedNow)
        exact fun list same => blocks ⟨list, Option.some.inj same⟩
  | observerRecv sender m =>
    dsimp only [handleInput]
    unfold onObserverRecv
    split <;> exact intact.queued
  | formulatorRecv m =>
    dsimp only [handleInput]
    unfold onFormulatorRecv
    split <;> exact intact.queued

theorem filed_step (amb : Ambient) (input : Input Tx) :
    (ob.step su amb input).Entries FiledEntry := by
  have kept : ∀ {current} {start ob' : ObserverNode Acc Ev Tx}, start.Entries FiledEntry →
      Moves su current start ob' → ob'.Entries FiledEntry := by
    intro current start ob' all moves
    induction moves with
    | refl => exact all
    | tail _ move ih => exact filedEntries_move ih move
  cases step_cases su amb input intact.filedNow with
  | moves run => exact kept intact.filed run
  | @handles _ rest _ run =>
    have popped : Entries FiledEntry { ob with messageQueue := rest } := intact.filed
    exact kept popped run
  | @receives item _ run =>
    have pushed : (ob.push item).Entries FiledEntry := intact.filed
    exact kept pushed run

theorem step (amb : Ambient) (input : Input Tx) : (ob.step su amb input).Intact := by
  have coherent : (ob.handleInput su amb input).2.Coherent := intact.coherent_handleInput input
  have queued : (ob.handleInput su amb input).2.Queued := intact.queued_handleInput input
  refine ⟨?_, ?_, intact.filed_step amb input⟩
  · rcases step_outcome su amb input ob with stays | handled | halts
    · rw [stays]
      exact intact.coherent
    · rw [handled]
      exact coherent
    · rw [halts]
      exact coherent.congr rfl rfl rfl rfl rfl
  · rcases step_outcome su amb input ob with stays | handled | halts
    · rw [stays]
      exact intact.queued
    · rw [handled]
      exact queued
    · rw [halts]
      exact queued

end

end Intact

end ObserverNode

end Fleta.Pof
