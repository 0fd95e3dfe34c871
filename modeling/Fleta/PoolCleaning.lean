import Fleta.TransactionPool

/-!
# What a cleaned pool shows

`Clean` takes the transactions of the outdated queues out of the map of the hashes. A
transaction that is in this map but in no outdated queue stays visible, however old it is:
`Pop` takes it out of its queue only, and a queue that has seen a removed hash before does
not take it again.
-/

namespace Fleta

variable {Acc Ev Tx : Type}

def PoolItem.slot [Transaction Acc Ev Tx] (item : PoolItem Tx) : UInt32 :=
  toTimeSlot (Transaction.timestamp item.transaction)

inductive PoolCall (Tx : Type) where
  | push (item : PoolItem Tx)
  | pop (currentSlot : UInt32)
  | remove (txHash : Hash256) (tx : Tx)
  | clean (currentSlot : UInt32)

namespace PoolCall

variable [Transaction Acc Ev Tx]

def apply (tp : TransactionPool Tx) : PoolCall Tx → TransactionPool Tx
  | push item => (tp.push item).2
  | pop currentSlot => (tp.unsafePop currentSlot).2
  | remove txHash tx => tp.remove txHash tx
  | clean currentSlot => (tp.clean currentSlot).2

def run (calls : List (PoolCall Tx)) : TransactionPool Tx := calls.foldl apply .new

end PoolCall

namespace TransactionPool

def get (txHash : Hash256) (tp : TransactionPool Tx) : Option (PoolItem Tx) :=
  tp.txhashMap.get txHash

def size (tp : TransactionPool Tx) : Nat := tp.txhashMap.len

/-- The source has the order of a Go map. -/
def list (tp : TransactionPool Tx) : List (PoolItem Tx) := tp.txhashMap.eachAll.map Prod.snd

structure ShowsFrom [Transaction Acc Ev Tx] (slot : UInt32) (tp : TransactionPool Tx) : Prop where
  isExist : ∀ txHash, tp.isExist txHash = true →
    ∃ item, tp.get txHash = some item ∧ slot ≤ item.slot
  list : ∀ item ∈ tp.list, slot ≤ item.slot
  size : tp.size = (tp.list.filter fun item => slot ≤ item.slot).length

def QueuedBelow (slot : UInt32) (txHash : Hash256) (tp : TransactionPool Tx) : Prop :=
  ∃ entry ∈ tp.slotMap.eachAll, entry.1 < slot ∧ txHash ∈ entry.2.items.map Prod.fst

variable {tp : TransactionPool Tx} (slot : UInt32)

theorem get_cleanSlot (q : LinkedQueue (PoolItem Tx)) (txHash : Hash256) (item : PoolItem Tx) :
    (tp.cleanSlot slot q).get txHash = some item ↔
      tp.get txHash = some item ∧ txHash ∉ q.items.map Prod.fst := by
  have keys : q.items.foldl (fun map entry => map.delete entry.1) tp.txhashMap =
      (q.items.map Prod.fst).foldl (·.delete ·) tp.txhashMap := by rw [List.foldl_map]
  rw [get, cleanSlot, keys, SortedMap.get_foldl_delete, get]
  split <;> simp_all

theorem get_foldl_cleanSlot (slots : List (UInt32 × LinkedQueue (PoolItem Tx)))
    (txHash : Hash256) (item : PoolItem Tx) :
    (slots.foldl (fun tp entry => tp.cleanSlot entry.1 entry.2) tp).get txHash = some item ↔
      tp.get txHash = some item ∧ ∀ entry ∈ slots, txHash ∉ entry.2.items.map Prod.fst := by
  induction slots generalizing tp with
  | nil => simp
  | cons entry rest ih => rw [List.foldl_cons, ih, get_cleanSlot, List.forall_mem_cons, and_assoc]

theorem get_clean (currentSlot : UInt32) (txHash : Hash256) (item : PoolItem Tx) :
    (tp.clean currentSlot).2.get txHash = some item ↔
      tp.get txHash = some item ∧ ¬tp.QueuedBelow (currentSlot - 1) txHash := by
  rw [clean, get_foldl_cleanSlot, QueuedBelow]
  simp only [List.mem_filter, decide_eq_true_eq, not_exists, not_and, and_imp]

variable [Transaction Acc Ev Tx]

theorem showsFrom_iff :
    tp.ShowsFrom slot ↔ ∀ txHash item, tp.get txHash = some item → slot ≤ item.slot := by
  constructor
  · intro shows txHash item held
    apply shows.list
    exact List.mem_map_of_mem ((SortedMap.mem_eachAll _ txHash item).mpr held)
  · intro above
    have listed : ∀ item ∈ tp.list, slot ≤ item.slot := by
      intro item member
      obtain ⟨⟨txHash, _⟩, entry, rfl⟩ := List.mem_map.mp member
      exact above txHash _ ((SortedMap.mem_eachAll _ _ _).mp entry)
    refine ⟨?_, listed, ?_⟩
    · intro txHash exist
      obtain ⟨item, held⟩ := Option.isSome_iff_exists.mp ((SortedMap.has_eq _ _).symm.trans exist)
      exact ⟨item, held, above txHash item held⟩
    · rw [List.filter_eq_self.mpr fun item member => decide_eq_true (listed item member), list,
        List.length_map, SortedMap.length_eachAll]
      rfl

/-- After calls that end in `Clean`, nothing outdated is visible exactly if everything
outdated was still in an outdated queue. -/
theorem clean_shows_iff (calls : List (PoolCall Tx)) (currentSlot : UInt32) :
    (PoolCall.run (calls ++ [.clean currentSlot])).ShowsFrom (currentSlot - 1) ↔
      ∀ txHash item, (PoolCall.run calls).get txHash = some item → item.slot < currentSlot - 1 →
        (PoolCall.run calls).QueuedBelow (currentSlot - 1) txHash := by
  have last : PoolCall.run (calls ++ [.clean currentSlot]) =
      ((PoolCall.run calls).clean currentSlot).2 := by
    rw [PoolCall.run, List.foldl_append]
    rfl
  rw [showsFrom_iff, last]
  simp only [get_clean, and_imp]
  refine forall₂_congr fun txHash item => forall_congr' fun _ => ?_
  rw [← UInt32.not_lt]
  exact ⟨fun kept low => by_contra fun other => kept other low,
    fun queued other low => other (queued low)⟩

end TransactionPool

namespace Instances

def oldItem : PoolItem SetData := ⟨idleType, [1], ⟨0, [97], [98]⟩, none, []⟩

/-- A popped transaction of slot 0 is still there after `Clean` of slot 2. -/
theorem popped_transaction_stays :
    ¬(PoolCall.run ([.push oldItem, .pop 1] ++ [.clean 2])).ShowsFrom (2 - 1) := by
  intro shows
  obtain ⟨item, held, above⟩ := shows.isExist [1] (by decide +kernel)
  have stays : ((PoolCall.run ([.push oldItem, .pop 1] ++ [.clean 2])).get [1]).map PoolItem.slot =
      some 0 := by
    decide +kernel
  rw [held, Option.map_some, Option.some.injEq] at stays
  rw [stays] at above
  exact absurd above (by decide)

end Instances

end Fleta
