import Fleta.PoolCleaning

/-!
# Progress of the pool

`Pop` looks at the queue of the slot before the current one and falls back to the current
slot only if there is no such queue. A queue stays in the map after its last transaction has
left it, and then hides the current slot.
-/

namespace Fleta

variable {Acc Ev Tx : Type}

namespace TransactionPool

def afterPops (c : UInt32) : Nat → TransactionPool Tx → TransactionPool Tx
  | 0, tp => tp
  | n + 1, tp => afterPops c n (tp.unsafePop c).2

def held (slot : UInt32) (tp : TransactionPool Tx) : List (Hash256 × PoolItem Tx) :=
  ((tp.slotMap.get slot).getD .new).items

/-- No queue stands before the current slot, or the current slot has nothing to hide. -/
def Unhidden (c : UInt32) (tp : TransactionPool Tx) : Prop :=
  tp.slotMap.get (c - 1) = none ∨ tp.held c = []

section Spec

variable [Transaction Acc Ev Tx]

def Due (c : UInt32) (item : PoolItem Tx) : Prop := item.slot = c - 1 ∨ item.slot = c

def Queued (c : UInt32) (tp : TransactionPool Tx) : Prop :=
  ∃ slot q, tp.slotMap.get slot = some q ∧ ∃ entry ∈ q.items, Due c entry.2

structure Progresses (c : UInt32) (tp : TransactionPool Tx) : Prop where
  pops : tp.Queued c → ∃ item, (tp.unsafePop c).1 = some item ∧ Due c item
  drains : ∀ n, ((tp.afterPops c n).unsafePop c).1 = none → ¬(tp.afterPops c n).Queued c

/-- Every queue holds transactions of its own slot only. -/
def Placed (tp : TransactionPool Tx) : Prop :=
  ∀ slot q, tp.slotMap.get slot = some q → ∀ entry ∈ q.items, entry.2.slot = slot

end Spec

variable {tp : TransactionPool Tx} {c : UInt32}

theorem sub_one_ne (c : UInt32) : c - 1 ≠ c := by
  intro same
  have values := congrArg UInt32.toNat same
  have bound := c.toNat_lt
  rw [UInt32.toNat_sub, UInt32.toNat_one] at values
  omega

variable {q : LinkedQueue (PoolItem Tx)}

theorem unsafePop_before (found : tp.slotMap.get (c - 1) = some q) :
    tp.unsafePop c = tp.popSlot (c - 1) q := by
  rw [unsafePop, found]

theorem unsafePop_current (absent : tp.slotMap.get (c - 1) = none) :
    tp.unsafePop c = match tp.slotMap.get c with
      | some q => tp.popSlot c q
      | none => (none, tp) := by
  cases found : tp.slotMap.get c <;> simp only [unsafePop, absent, found]

theorem held_popSlot {slot other : UInt32} (ne : slot ≠ other) (q : LinkedQueue (PoolItem Tx)) :
    (tp.popSlot slot q).2.held other = tp.held other := by
  unfold held popSlot
  dsimp only
  rw [SortedMap.get_put_of_ne _ _ ne]

theorem Unhidden.pop (clear : tp.Unhidden c) : (tp.unsafePop c).2.Unhidden c := by
  cases found : tp.slotMap.get (c - 1) with
  | none =>
    rw [unsafePop_current found]
    split
    · exact .inl ((SortedMap.get_put_of_ne _ _ (sub_one_ne c).symm).trans found)
    · exact .inl found
  | some q =>
    rw [unsafePop_before found]
    refine .inr ((held_popSlot (sub_one_ne c) q).trans (clear.resolve_left ?_))
    rw [found]
    exact Option.some_ne_none q

theorem pop_eq_none : q.pop.1 = none ↔ q.items = [] := by
  unfold LinkedQueue.pop
  split <;> simp_all

/-- The pops of the slot before the current one leave its queue empty in the map. -/
theorem exists_emptied (found : tp.slotMap.get (c - 1) = some q) :
    ∃ n q', (tp.afterPops c n).slotMap.get (c - 1) = some q' ∧ q'.items = [] ∧
      (tp.afterPops c n).held c = tp.held c := by
  induction items : q.items generalizing tp q with
  | nil => exact ⟨0, q, found, items, rfl⟩
  | cons entry rest ih =>
    have next : (tp.unsafePop c).2.slotMap.get (c - 1) = some q.pop.2 := by
      rw [unsafePop_before found]
      exact SortedMap.get_put_self _ _ _
    obtain ⟨n, q', found', empty, same⟩ := ih next (by rw [LinkedQueue.pop, items])
    refine ⟨n + 1, q', found', empty, same.trans ?_⟩
    rw [unsafePop_before found, held_popSlot (sub_one_ne c)]

variable [Transaction Acc Ev Tx]

section

variable (placed : tp.Placed)

include placed

theorem Placed.queued_iff : tp.Queued c ↔ tp.held (c - 1) ≠ [] ∨ tp.held c ≠ [] := by
  constructor
  · rintro ⟨slot, q, found, entry, member, due⟩
    have here : ∀ {other}, entry.2.slot = other → tp.held other ≠ [] := by
      rintro _ rfl
      rw [held, placed slot q found entry member, found]
      exact List.ne_nil_of_mem member
    exact due.imp here here
  · have queued : ∀ slot, slot = c - 1 ∨ slot = c → tp.held slot ≠ [] → tp.Queued c := by
      intro slot due filled
      unfold held at filled
      cases found : tp.slotMap.get slot with
      | none =>
        rw [found] at filled
        exact absurd rfl filled
      | some q =>
        rw [found] at filled
        obtain ⟨entry, member⟩ := List.exists_mem_of_ne_nil _ filled
        rw [← placed slot q found entry member] at due
        exact ⟨slot, q, found, entry, member, due⟩
    rintro (before | current)
    · exact queued _ (.inl rfl) before
    · exact queued _ (.inr rfl) current

theorem Placed.popSlot {slot : UInt32} {q : LinkedQueue (PoolItem Tx)}
    (found : tp.slotMap.get slot = some q) : (tp.popSlot slot q).2.Placed := by
  apply SortedMap.forall_get_put placed
  intro entry member
  apply placed slot q found entry
  unfold LinkedQueue.pop at member
  split at member
  · exact member
  · rename_i items
    rw [items]
    exact List.mem_cons_of_mem _ member

theorem Placed.pop (c : UInt32) : (tp.unsafePop c).2.Placed := by
  unfold unsafePop
  split
  · exact placed.popSlot ‹_›
  split
  · exact placed.popSlot ‹_›
  · exact placed

theorem Placed.push (item : PoolItem Tx) : (tp.push item).2.Placed := by
  unfold TransactionPool.push
  split
  · exact placed
  apply SortedMap.forall_get_put placed
  intro entry member
  have old : ∀ entry ∈ tp.held item.slot, entry.2.slot = item.slot := by
    unfold held
    cases found : tp.slotMap.get item.slot with
    | none => exact fun _ none => absurd none List.not_mem_nil
    | some q => exact placed _ q found
  unfold LinkedQueue.push at member
  split at member
  · exact old entry member
  · obtain before | own := List.mem_append.mp member
    · exact old entry before
    · rw [List.mem_singleton.mp own]
      rfl

theorem Placed.remove (txHash : Hash256) (tx : Tx) : (tp.remove txHash tx).Placed := by
  unfold TransactionPool.remove
  dsimp only
  split
  · exact placed
  rename_i q found
  apply SortedMap.forall_get_put placed
  intro entry member
  apply placed _ q found entry
  unfold LinkedQueue.remove at member
  split at member
  · exact member
  split at member
  · exact member
  · exact List.mem_of_mem_filter member

theorem Placed.clean (c : UInt32) : (tp.clean c).2.Placed := by
  unfold TransactionPool.clean
  dsimp only
  induction tp.slotMap.eachAll.filter (fun entry => entry.1 < c - 1) generalizing tp with
  | nil => exact placed
  | cons entry rest ih =>
    apply ih
    intro slot q found
    exact placed slot q (SortedMap.get_of_get_delete found)

end

theorem placed_run (calls : List (PoolCall Tx)) : (PoolCall.run calls).Placed := by
  unfold PoolCall.run
  have start : (new : TransactionPool Tx).Placed := by
    intro slot q found
    cases found
  generalize (new : TransactionPool Tx) = tp at start ⊢
  induction calls generalizing tp with
  | nil => exact start
  | cons call rest ih =>
    apply ih
    cases call with
    | push item => exact start.push item
    | pop c => exact start.pop c
    | remove txHash tx => exact start.remove txHash tx
    | clean c => exact start.clean c

section

variable (placed : tp.Placed)

include placed

theorem Placed.pop_held {slot : UInt32} {q : LinkedQueue (PoolItem Tx)}
    (found : tp.slotMap.get slot = some q) (filled : tp.held slot ≠ []) :
    ∃ item, q.pop.1 = some item ∧ item.slot = slot := by
  have own := placed slot q found
  rw [held, found] at filled
  unfold LinkedQueue.pop
  split
  · exact absurd ‹_› filled
  · rename_i key item rest items
    exact ⟨item, rfl, own (key, item) (by rw [items]; exact List.mem_cons_self)⟩

theorem Placed.pops (clear : tp.Unhidden c) (queued : tp.Queued c) :
    ∃ item, (tp.unsafePop c).1 = some item ∧ Due c item := by
  rw [placed.queued_iff] at queued
  cases found : tp.slotMap.get (c - 1) with
  | none =>
    have filled := queued.resolve_left (by rw [held, found]; exact not_not.mpr rfl)
    rw [unsafePop_current found]
    cases current : tp.slotMap.get c with
    | none =>
      rw [held, current] at filled
      exact absurd rfl filled
    | some q =>
      obtain ⟨item, popped, due⟩ := placed.pop_held current filled
      exact ⟨item, popped, .inr due⟩
  | some q =>
    have nothing : tp.held c = [] := clear.resolve_left (by rw [found]; exact Option.some_ne_none q)
    obtain ⟨item, popped, due⟩ := placed.pop_held found (queued.resolve_right (not_not.mpr nothing))
    rw [unsafePop_before found]
    exact ⟨item, popped, .inl due⟩

theorem Placed.afterPops (n : Nat) : (tp.afterPops c n).Placed := by
  induction n generalizing tp with
  | zero => exact placed
  | succ n ih => exact ih (placed.pop c)

theorem Placed.progresses_iff : tp.Progresses c ↔ tp.Unhidden c := by
  constructor
  · intro progress
    by_contra hidden
    obtain ⟨present, filled⟩ := not_or.mp hidden
    obtain ⟨q, found⟩ := Option.ne_none_iff_exists'.mp present
    obtain ⟨n, q', found', empty, same⟩ := exists_emptied found
    apply progress.drains n
    · rw [unsafePop_before found']
      exact pop_eq_none.mpr empty
    · rw [(placed.afterPops n).queued_iff, same]
      exact .inr filled
  · intro clear
    refine ⟨placed.pops clear, ?_⟩
    intro n
    induction n generalizing tp with
    | zero =>
      intro nothing queued
      obtain ⟨item, popped, _⟩ := placed.pops clear queued
      exact Option.some_ne_none item (popped.symm.trans nothing)
    | succ n ih => exact ih (placed.pop c) clear.pop

end

/-- `Pop` finds what is due, and pops until nothing is left, exactly if no queue of the slot
before stands in front of a transaction of the current slot. -/
theorem pool_progress_iff (calls : List (PoolCall Tx)) (c : UInt32) :
    (PoolCall.run calls).Progresses c ↔ (PoolCall.run calls).Unhidden c :=
  (placed_run calls).progresses_iff

end TransactionPool

namespace Instances

def currentItem : PoolItem SetData := ⟨idleType, [2], ⟨5 * second, [97], [98]⟩, none, []⟩

/-- The queue of slot 0 is empty after the pop and hides the transaction of slot 1. -/
theorem emptied_slot_hides :
    ¬(PoolCall.run [.push oldItem, .pop 1, .push currentItem]).Progresses 1 := by
  intro progress
  rw [TransactionPool.Placed.progresses_iff (TransactionPool.placed_run _)] at progress
  rcases progress with absent | empty
  · have present : ((PoolCall.run [.push oldItem, .pop 1, .push currentItem]).slotMap.get 0).isSome := by
      decide +kernel
    rw [show (1 : UInt32) - 1 = 0 from rfl] at absent
    rw [absent] at present
    cases present
  · have queued : ((PoolCall.run [.push oldItem, .pop 1, .push currentItem]).held 1).length = 1 := by
      decide +kernel
    rw [empty] at queued
    cases queued

end Instances

end Fleta
