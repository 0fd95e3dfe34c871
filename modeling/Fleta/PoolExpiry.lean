import Fleta.ExpireQueue
import Fleta.PoolCleaning

/-!
# Expiry of pooled transactions

`addTx` of a formulator puts a transaction into the pool and into the expiry queue. The item
of the queue leaves out the hash of the transaction, so when the last group expires the pool
is asked to remove the transaction of the zero hash.
-/

namespace Fleta

variable {Acc Ev Tx Item : Type}

/-- What holds of every item of a group, and of those that its worker carries. -/
structure ExpireGroup.Each (P : Item → Prop) (g : ExpireGroup Item) : Prop where
  held : ∀ key entry, g.itemMap.get key = some entry → P entry.item
  carried : ∀ entry ∈ g.expired, P entry.2

namespace ExpireGroup.Each

variable {P : Item → Prop} {g : ExpireGroup Item} (each : g.Each P)

include each

theorem push (key : Bytes) {item : Item} (now : Int) (new : P item) : (g.push key item now).Each P :=
  { each with held := SortedMap.forall_get_put each.held new }

theorem remove (key : Bytes) : (g.remove key).Each P where
  held other entry found := each.held other entry (SortedMap.get_of_get_delete found)
  carried := each.carried

theorem takeExpired (now : Int) : (g.takeExpired now).Each P := by
  unfold ExpireGroup.takeExpired
  split
  · constructor
    · intro key entry found
      rw [SortedMap.get_foldl_delete] at found
      split at found
      · cases found
      · exact each.held key entry found
    · intro entry listed
      obtain ⟨⟨key, taken⟩, mem, rfl⟩ := List.mem_map.mp listed
      exact each.held key taken ((SortedMap.mem_eachAll _ _ _).mp (List.mem_of_mem_filter mem))
  · exact each

theorem insertAll (clock : Bytes → Int) {items : List (Bytes × Item)}
    (new : ∀ entry ∈ items, P entry.2) : (g.insertAll clock items).Each P := by
  refine { each with held := ?_ }
  have start := each.held
  unfold ExpireGroup.insertAll
  dsimp only
  generalize g.itemMap = map at start ⊢
  induction items generalizing map with
  | nil => exact start
  | cons entry rest ih =>
    rw [List.forall_mem_cons] at new
    exact ih new.2 _ (SortedMap.forall_get_put start new.1)

end ExpireGroup.Each

namespace ExpireQueue

variable {P : Item → Prop} {q : ExpireQueue Item}

theorem each_modify (each : ∀ g ∈ q, g.Each P) (idx : Nat) {f : ExpireGroup Item → ExpireGroup Item}
    (keeps : ∀ g, g.Each P → (f g).Each P) : ∀ g ∈ q.modify idx f, g.Each P := by
  intro g listed
  obtain ⟨j, found⟩ := List.getElem?_of_mem listed
  rw [List.getElem?_modify] at found
  obtain ⟨old, before, rfl⟩ := Option.map_eq_some_iff.mp found
  have own := each old (List.mem_of_getElem? before)
  split
  · exact keeps old own
  · exact own

/-- A step of the queue only passes items on. -/
theorem Step.each_apply (each : ∀ g ∈ q, g.Each P) (step : Step Item)
    (new : ∀ key item now, step = .push key item now → P item) : ∀ g ∈ step.apply q, g.Each P := by
  cases step with
  | push key item now => exact each_modify each 0 fun g own => own.push key now (new key item now rfl)
  | remove key =>
    intro g listed
    obtain ⟨old, before, rfl⟩ := List.mem_map.mp listed
    exact (each old before).remove key
  | takeExpired idx now => exact each_modify each idx fun g own => own.takeExpired now
  | forward idx clock =>
    rw [Step.apply, ExpireQueue.forward]
    split
    · exact each
    · rename_i g found
      have carried := (each g (List.mem_of_getElem? found)).carried
      apply each_modify (each_modify each _ fun next own => own.insertAll clock carried)
      exact fun own each => { each with carried := fun _ none => absurd none List.not_mem_nil }

end ExpireQueue

structure TxMsgItem (Tx : Type) where
  txHash : Hash256
  txType : UInt16
  tx : Tx
  sigs : Option (List Signature)

/-- The hash of an item that is made without one. -/
def TxMsgItem.noHash : Hash256 := List.replicate 32 0

/-- What a formulator keeps of the transactions it has been given. -/
structure FormulatorNode (Tx : Type) where
  txpool : TransactionPool Tx
  txQ : ExpireQueue (TxMsgItem Tx)
  txSendQ : List (TxMsgItem Tx)

namespace FormulatorNode

def new : FormulatorNode Tx := ⟨.new, .new [60000000000, 600000000000, 3600000000000], []⟩

variable [Account Acc] [Event Ev] [Base58] [Transaction Acc Ev Tx]

def addTx (cn : Chain Acc Ev Tx) (ctx : Context Acc Ev) (txHash : Hash256) (t : UInt16) (tx : Tx)
    (sigs : Option (List Signature)) (now : Int) (fr : FormulatorNode Tx) : FormulatorNode Tx :=
  match fr.txpool.addTx cn ctx txHash t tx sigs with
  | (.error _, txpool) => { fr with txpool := txpool }
  | (.ok _, txpool) =>
    { fr with
      txpool := txpool
      txQ := ExpireQueue.Step.apply fr.txQ (.push txHash ⟨TxMsgItem.noHash, t, tx, sigs⟩ now) }

/-- The slot of the transaction is not long past and not far ahead. -/
def Current (lastTimestamp : UInt64) (tx : Tx) : Prop :=
  toTimeSlot lastTimestamp > 0 →
    ¬toTimeSlot (Transaction.timestamp tx) < toTimeSlot lastTimestamp - 1 ∧
      ¬toTimeSlot (Transaction.timestamp tx) > toTimeSlot lastTimestamp + 10

instance (lastTimestamp : UInt64) (tx : Tx) : Decidable (Current lastTimestamp tx) :=
  inferInstanceAs (Decidable (_ → _))

def onItemExpired (lastTimestamp : UInt64) (item : TxMsgItem Tx) (isLast : Bool)
    (fr : FormulatorNode Tx) : FormulatorNode Tx :=
  if Current lastTimestamp item.tx then
    { fr with
      txSendQ := fr.txSendQ ++ [item]
      txpool := if isLast then fr.txpool.remove item.txHash item.tx else fr.txpool }
  else fr

/-- What happens to the transactions. A block that is connected takes its transactions out one
by one, and cleans the pool; a block that is made pops them. -/
inductive Step (Acc Ev Tx : Type) where
  | addTx (ctx : Context Acc Ev) (txHash : Hash256) (t : UInt16) (tx : Tx)
      (sigs : Option (List Signature)) (now : Int)
  | cleanPool (txHash : Hash256) (tx : Tx)
  | clean (currentSlot : UInt32)
  | pop (currentSlot : UInt32)
  | takeExpired (idx : Nat) (now : Int)
  | onItemExpired (idx n : Nat) (lastTimestamp : UInt64)
  | forward (idx : Nat) (clock : Bytes → Int)

/-- One of the items that the worker of the group calls the handler with. -/
def carried (idx n : Nat) (fr : FormulatorNode Tx) : Option (Bytes × TxMsgItem Tx) :=
  fr.txQ[idx]?.bind fun g => g.expired[n]?

def Step.apply (cn : Chain Acc Ev Tx) (fr : FormulatorNode Tx) : Step Acc Ev Tx → FormulatorNode Tx
  | addTx ctx txHash t tx sigs now => fr.addTx cn ctx txHash t tx sigs now
  | cleanPool txHash tx =>
    { fr with
      txpool := fr.txpool.remove txHash tx
      txQ := ExpireQueue.Step.apply fr.txQ (.remove txHash) }
  | clean currentSlot => { fr with txpool := (fr.txpool.clean currentSlot).2 }
  | pop currentSlot => { fr with txpool := (fr.txpool.unsafePop currentSlot).2 }
  | takeExpired idx now => { fr with txQ := ExpireQueue.Step.apply fr.txQ (.takeExpired idx now) }
  | onItemExpired idx n lastTimestamp =>
    match fr.carried idx n with
    | none => fr
    | some (_, item) => fr.onItemExpired lastTimestamp item (idx + 1 = fr.txQ.length)
  | forward idx clock => { fr with txQ := ExpireQueue.Step.apply fr.txQ (.forward idx clock) }

def run (cn : Chain Acc Ev Tx) (steps : List (Step Acc Ev Tx)) : FormulatorNode Tx :=
  steps.foldl (Step.apply cn) new

/-- Once the last group fires for a transaction, the pool does not have it. -/
def ExpiredLeave (lastTimestamp : UInt64) (fr : FormulatorNode Tx) : Prop :=
  ∀ n key item, fr.carried (fr.txQ.length - 1) n = some (key, item) →
    (fr.onItemExpired lastTimestamp item true).txpool.isExist key = false

/-- The pool does not have the transaction before either, or the zero hash is its own. -/
def Unheld (lastTimestamp : UInt64) (fr : FormulatorNode Tx) : Prop :=
  ∀ n key item, fr.carried (fr.txQ.length - 1) n = some (key, item) →
    fr.txpool.isExist key = false ∨ (key = TxMsgItem.noHash ∧ Current lastTimestamp item.tx ∧
        fr.txpool.slotMap.get (toTimeSlot (Transaction.timestamp item.tx)) ≠ none)

variable {cn : Chain Acc Ev Tx} {fr : FormulatorNode Tx}

/-- No item of the queue knows the hash of its transaction. -/
def Hashless (fr : FormulatorNode Tx) : Prop :=
  ∀ g ∈ fr.txQ, g.Each fun item => item.txHash = TxMsgItem.noHash

theorem Hashless.apply (hashless : fr.Hashless) (step : Step Acc Ev Tx) :
    (step.apply cn fr).Hashless := by
  have passes := ExpireQueue.Step.each_apply hashless
  cases step with
  | addTx ctx txHash t tx sigs now =>
    rw [Step.apply, FormulatorNode.addTx]
    split
    · exact hashless
    · refine passes (.push txHash ⟨TxMsgItem.noHash, t, tx, sigs⟩ now) ?_
      rintro _ _ _ ⟨⟩
      rfl
  | cleanPool txHash tx => exact passes (.remove txHash) (by simp)
  | clean | pop => exact hashless
  | takeExpired idx now => exact passes (.takeExpired idx now) (by simp)
  | onItemExpired idx n lastTimestamp =>
    rw [Step.apply]
    split
    · exact hashless
    · unfold FormulatorNode.onItemExpired
      split <;> exact hashless
  | forward idx clock => exact passes (.forward idx clock) (by simp)

theorem hashless_run (cn : Chain Acc Ev Tx) (steps : List (Step Acc Ev Tx)) :
    (run cn steps).Hashless := by
  have start : (new : FormulatorNode Tx).Hashless := by
    intro g listed
    obtain ⟨interval, _, rfl⟩ := List.mem_map.mp listed
    refine ⟨?_, fun _ none => absurd none List.not_mem_nil⟩
    intro key entry found
    cases found
  unfold run
  generalize (new : FormulatorNode Tx) = fr at start ⊢
  induction steps generalizing fr with
  | nil => exact start
  | cons step rest ih => exact ih _ (start.apply step)

omit [Account Acc] [Event Ev] [Base58] [Transaction Acc Ev Tx] in
theorem Hashless.carried (hashless : fr.Hashless) {idx n : Nat} {entry : Bytes × TxMsgItem Tx}
    (carried : fr.carried idx n = some entry) : entry.2.txHash = TxMsgItem.noHash := by
  obtain ⟨g, found, listed⟩ := Option.bind_eq_some_iff.mp carried
  exact (hashless g (List.mem_of_getElem? found)).carried entry (List.mem_of_getElem? listed)

omit [Account Acc] [Event Ev] [Base58] in
theorem isExist_remove (tp : TransactionPool Tx) (txHash key : Hash256) (tx : Tx) :
    (tp.remove txHash tx).isExist key = false ↔ tp.isExist key = false ∨
      key = txHash ∧ tp.slotMap.get (toTimeSlot (Transaction.timestamp tx)) ≠ none := by
  unfold TransactionPool.remove TransactionPool.isExist
  dsimp only
  split
  · simp_all
  · rcases eq_or_ne key txHash with rfl | other
    · simp_all
    · simp [SortedMap.get_delete, other, other.symm]

/-- The last group takes a transaction out of the pool only if the pool does not have it, or
has it with the zero hash. -/
theorem expired_leave_iff (cn : Chain Acc Ev Tx) (steps : List (Step Acc Ev Tx))
    (lastTimestamp : UInt64) :
    ExpiredLeave lastTimestamp (run cn steps) ↔ Unheld lastTimestamp (run cn steps) := by
  have hashless := hashless_run cn steps
  generalize run cn steps = fr at hashless ⊢
  unfold ExpiredLeave Unheld
  refine forall₃_congr fun n key item => forall_congr' fun carried => ?_
  unfold onItemExpired
  split
  · rename_i current
    rw [if_pos rfl, isExist_remove, hashless.carried carried]
    simp [current]
  · rename_i outdated
    simp [outdated]

end FormulatorNode

namespace Instances

def expiredRun : List (FormulatorNode.Step SingleAccount PlainEvent SetData) :=
  [.addTx (Context.new emptyLoader) [1] idleType ⟨0, [97], [98]⟩ none 0, .takeExpired 0 60000000000,
    .forward 0 fun _ => 60000000000, .takeExpired 1 660000000000, .forward 1 fun _ => 660000000000,
    .takeExpired 2 4260000000000]

/-- A transaction goes through all three groups and is still in the pool. -/
theorem expired_transaction_stays :
    ¬FormulatorNode.ExpiredLeave 0 (FormulatorNode.run idleChain expiredRun) := by
  have stays : ((FormulatorNode.run idleChain expiredRun).carried 2 0).any (fun entry =>
      ((FormulatorNode.run idleChain expiredRun).onItemExpired 0 entry.2 true).txpool.isExist
        entry.1) = true := by
    decide +kernel
  intro leave
  obtain ⟨⟨key, item⟩, carried, exists_⟩ := (Option.any_eq_true _ _).mp stays
  rw [leave 0 key item carried] at exists_
  cases exists_

end Instances

end Fleta
