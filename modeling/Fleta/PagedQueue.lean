import Fleta.Primitives

/-!
# The paged queue

A queue keeps its items in pages of 1024 cells, each a ring with a head, a tail and a size.
Pages that have become empty go to a pool that all queues share and are taken from it again
with whatever their cells still hold. However the pool picks and drops its pages, every queue
is a first-in first-out list of its own items.
-/

namespace Fleta

open List Function

variable {K Item : Type}

/-- `queuePage`: the window of `size` cells from `head` on, round the end of the array. -/
structure QueuePage (Item : Type) where
  queue : Nat → Option Item
  head : Nat
  tail : Nat
  size : Nat
  inside : head < 1024
  bounded : size ≤ 1024
  window : tail = (head + size) % 1024

namespace QueuePage

def new : QueuePage Item :=
  ⟨fun _ => none, 0, 0, 0, Nat.zero_lt_succ _, Nat.zero_le _, rfl⟩

def cap (_ : QueuePage Item) : Nat := 1024

/-- A full page stays as it is; the caller drops the error. -/
def push (item : Item) (page : QueuePage Item) : QueuePage Item :=
  if room : page.size < 1024 then
    { page with
      queue := update page.queue page.tail (some item)
      tail := (page.tail + 1) % 1024
      size := page.size + 1
      bounded := room
      window := by rw [page.window, Nat.mod_add_mod, Nat.add_assoc] }
  else page

def pop (page : QueuePage Item) : Option Item × QueuePage Item :=
  if filled : 0 < page.size then
    (page.queue page.head, { page with
      head := (page.head + 1) % 1024
      size := page.size - 1
      inside := Nat.mod_lt _ (Nat.zero_lt_succ _)
      bounded := Nat.le_trans (Nat.sub_le _ _) page.bounded
      window := by
        have window := page.window
        omega })
  else (none, page)

/-- The cells that `iter` visits. -/
def items (page : QueuePage Item) : List (Option Item) :=
  (range page.size).map fun i => page.queue ((page.head + i) % 1024)

variable {page : QueuePage Item}

theorem items_eq_nil : page.items = [] ↔ page.size = 0 := by
  rw [items, map_eq_nil_iff, range_eq_nil]

theorem items_push (item : Item) (room : page.size < 1024) :
    (page.push item).items = page.items ++ [some item] := by
  have window := page.window
  rw [push, dif_pos room, items, range_succ, map_append, items]
  dsimp only
  congr 1
  · refine map_congr_left fun i listed => update_of_ne ?_ _ _
    have below := mem_range.mp listed
    omega
  · rw [map_singleton, ← window, update_self]

theorem items_pop (filled : 0 < page.size) : page.items = page.pop.1 :: page.pop.2.items := by
  have first : (page.head + 0) % 1024 = page.head := Nat.mod_eq_of_lt page.inside
  have ahead : range page.size = 0 :: (range (page.size - 1)).map Nat.succ := by
    rw [← range_succ_eq_map, Nat.sub_add_cancel filled]
  rw [pop, dif_pos filled, items, ahead, map_cons, map_map, first]
  refine congrArg (_ :: ·) (map_congr_left fun i _ => congrArg page.queue ?_)
  dsimp only
  omega

end QueuePage

structure Queue (Item : Type) where
  pages : List (QueuePage Item)
  size : Int

/-- `queuePagePool.Get` takes any of the pages that the pool still has, or a new one. -/
def getPage (choice : Nat) (pool : List (QueuePage Item)) : QueuePage Item × List (QueuePage Item) :=
  match pool[choice]? with
  | some page => (page, pool.eraseIdx choice)
  | none => (.new, pool)

namespace Queue

def push (item : Item) (choice : Nat) (pool : List (QueuePage Item)) (q : Queue Item) :
    Queue Item × List (QueuePage Item) :=
  let appended : Queue Item × List (QueuePage Item) :=
    (⟨q.pages ++ [(getPage choice pool).1.push item], q.size + 1⟩, (getPage choice pool).2)
  match q.pages.getLast? with
  | none => appended
  | some page =>
    if page.size = page.cap then appended
    else (⟨q.pages.dropLast ++ [page.push item], q.size + 1⟩, pool)

def pop (pool : List (QueuePage Item)) (q : Queue Item) :
    Option Item × Queue Item × List (QueuePage Item) :=
  match q.pages with
  | [] => (none, q, pool)
  | page :: rest =>
    match page.pop with
    | (none, page) => (none, ⟨page :: rest, q.size⟩, pool)
    | (some item, page) =>
      if page.size = 0 ∧ rest ≠ [] then (some item, ⟨rest, q.size - 1⟩, page :: pool)
      else (some item, ⟨page :: rest, q.size - 1⟩, pool)

/-- The queue holds the items in this order. -/
structure Holds (q : Queue Item) (list : List Item) : Prop where
  items : q.pages.flatMap QueuePage.items = list.map some
  size : q.size = list.length
  filled : 1 < q.pages.length → ∀ page ∈ q.pages, 0 < page.size

def Recycled (pool : List (QueuePage Item)) : Prop := ∀ page ∈ pool, page.size = 0

variable {q : Queue Item} {list : List Item} {pool : List (QueuePage Item)}

theorem getPage_size (recycled : Recycled pool) (choice : Nat) :
    (getPage choice pool).1.size = 0 ∧ Recycled (getPage choice pool).2 := by
  unfold getPage
  split
  · rename_i page found
    exact ⟨recycled page (mem_of_getElem? found),
      fun other listed => recycled other (mem_of_mem_eraseIdx listed)⟩
  · exact ⟨rfl, recycled⟩

/-- An item goes behind the others when it is pushed to a page after filled ones. -/
theorem Holds.pushed {front : List (QueuePage Item)} {page : QueuePage Item} (item : Item)
    (room : page.size < 1024) (filled : ∀ other ∈ front, 0 < other.size)
    (items : (front ++ [page]).flatMap QueuePage.items = list.map some)
    (size : q.size = list.length) :
    Holds ⟨front ++ [page.push item], q.size + 1⟩ (list ++ [item]) where
  items := by
    rw [flatMap_append, flatMap_singleton] at items ⊢
    rw [QueuePage.items_push item room, ← append_assoc, items, map_append, map_singleton]
  size := by
    rw [length_append, length_singleton, Int.natCast_add, ← size]
    rfl
  filled _ := by
    refine forall_mem_concat filled ?_
    rw [QueuePage.push, dif_pos room]
    exact Nat.succ_pos _

theorem Holds.push (holds : q.Holds list) (recycled : Recycled pool) (item : Item) (choice : Nat) :
    (q.push item choice pool).1.Holds (list ++ [item]) ∧
      Recycled (q.push item choice pool).2 := by
  obtain ⟨empty, recycled'⟩ := getPage_size recycled choice
  have room : (getPage choice pool).1.size < 1024 := empty ▸ Nat.zero_lt_succ _
  have same : (q.pages ++ [(getPage choice pool).1]).flatMap QueuePage.items = list.map some := by
    rw [flatMap_append, flatMap_singleton, QueuePage.items_eq_nil.mpr empty,
      append_nil, holds.items]
  unfold Queue.push
  split
  · rename_i none
    rw [getLast?_eq_none_iff] at none
    refine ⟨.pushed item room ?_ same holds.size, recycled'⟩
    rw [none]
    exact forall_mem_nil _
  · rename_i page last
    obtain ⟨front, split⟩ := getLast?_eq_some_iff.mp last
    have filled : front ≠ [] → ∀ other ∈ q.pages, 0 < other.size := by
      intro more
      refine holds.filled ?_
      rw [split, length_append]
      exact Nat.succ_lt_succ (length_pos_of_ne_nil more)
    split
    · rename_i full
      refine ⟨.pushed item room ?_ same holds.size, recycled'⟩
      by_cases more : front = []
      · rw [split, more]
        exact forall_mem_singleton.mpr (full ▸ Nat.zero_lt_succ _)
      · exact filled more
    · rename_i full
      have bounded := page.bounded
      rw [split, dropLast_concat]
      refine ⟨.pushed item (Nat.lt_of_le_of_ne bounded full) ?_ (split ▸ holds.items) holds.size,
        recycled⟩
      intro other listed
      refine filled (ne_nil_of_mem listed) other ?_
      rw [split]
      exact mem_append_left _ listed

theorem Holds.pop (holds : q.Holds list) (recycled : Recycled pool) :
    (q.pop pool).1 = list.head? ∧ (q.pop pool).2.1.Holds list.tail ∧
      Recycled (q.pop pool).2.2 := by
  have items := holds.items
  have filled := holds.filled
  unfold Queue.pop
  split
  · rename_i none
    rw [none, flatMap_nil, eq_comm, map_eq_nil_iff] at items
    subst items
    exact ⟨rfl, holds, recycled⟩
  rename_i page rest pages
  rw [pages] at filled
  rw [pages, flatMap_cons] at items
  by_cases some : 0 < page.size
  · -- the first cell of the window is the first item, so it is not nil
    rw [QueuePage.items_pop some] at items
    cases list with
    | nil => cases items
    | cons item list =>
      obtain ⟨first, others⟩ := cons.inj items
      have size : q.size - 1 = list.length := by
        rw [holds.size, length_cons, Int.natCast_add]
        exact Int.add_sub_cancel _ _
      split
      · rename_i missing
        rw [missing] at first
        cases first
      rename_i item' page' popped
      rw [popped] at first others
      cases first
      split
      · rename_i emptied
        rw [QueuePage.items_eq_nil.mpr emptied.1] at others
        refine ⟨rfl, ⟨others, size, fun more other listed => ?_⟩, ?_⟩
        · exact filled (Nat.lt_succ_of_lt more) other (mem_cons_of_mem _ listed)
        · exact forall_mem_cons.mpr ⟨emptied.1, recycled⟩
      · rename_i kept
        refine ⟨rfl, ⟨others, size, fun more => forall_mem_cons.mpr ⟨?_, ?_⟩⟩, recycled⟩
        · refine Nat.pos_of_ne_zero fun emptied => kept ⟨emptied, ?_⟩
          exact ne_nil_of_length_pos (Nat.lt_of_succ_lt_succ more)
        · exact (forall_mem_cons.mp (filled more)).2
  · -- an empty page is the only one
    have alone : rest = [] := by
      by_contra more
      exact some (filled (Nat.succ_lt_succ (length_pos_of_ne_nil more)) page mem_cons_self)
    have unfilled : page.pop = (none, page) := by rw [QueuePage.pop, dif_neg some]
    rw [alone, QueuePage.items_eq_nil.mpr (Nat.eq_zero_of_not_pos some), eq_comm] at items
    rw [unfilled]
    dsimp only
    rw [← pages]
    rw [map_eq_nil_iff.mp items] at holds ⊢
    exact ⟨rfl, holds, recycled⟩

end Queue

/-- The queues of a program and the pages that none of them uses. -/
structure Queues (K Item : Type) where
  pool : List (QueuePage Item)
  queue : K → Queue Item

/-- The calls on the queues; the pool may also drop a page at any time. -/
inductive QueueCall (K Item : Type) where
  | push (k : K) (item : Item) (choice : Nat)
  | pop (k : K)
  | dropPage (choice : Nat)

variable [DecidableEq K]

namespace Queues

def new : Queues K Item := ⟨[], fun _ => ⟨[], 0⟩⟩

def call (s : Queues K Item) : QueueCall K Item → Option Item × Queues K Item
  | .push k item choice =>
    let pushed := (s.queue k).push item choice s.pool
    (none, ⟨pushed.2, update s.queue k pushed.1⟩)
  | .pop k =>
    let popped := (s.queue k).pop s.pool
    (popped.1, ⟨popped.2.2, update s.queue k popped.2.1⟩)
  | .dropPage choice => (none, { s with pool := s.pool.eraseIdx choice })

end Queues

/-- What the queues are for: a list of items for each. -/
def Fifo.call (lists : K → List Item) : QueueCall K Item → Option Item × (K → List Item)
  | .push k item _ => (none, update lists k (lists k ++ [item]))
  | .pop k => ((lists k).head?, update lists k (lists k).tail)
  | .dropPage _ => (none, lists)

/-- The answers of the calls one after the other, and the last state. -/
def serve {State Call Answer : Type} (call : State → Call → Answer × State) :
    List Call → State → List Answer × State
  | [], s => ([], s)
  | c :: calls, s =>
    let rest := serve call calls (call s c).2
    ((call s c).1 :: rest.1, rest.2)

namespace Queues

structure Represents (s : Queues K Item) (lists : K → List Item) : Prop where
  holds : ∀ k, (s.queue k).Holds (lists k)
  recycled : Queue.Recycled s.pool

variable {lists : K → List Item} {s : Queues K Item}

theorem Represents.update (rep : s.Represents lists)
    {k : K} {q : Queue Item} {list : List Item} {pool : List (QueuePage Item)}
    (holds : q.Holds list) (recycled : Queue.Recycled pool) :
    Represents ⟨pool, update s.queue k q⟩ (update lists k list) where
  holds other := by
    dsimp only
    by_cases same : other = k
    · subst same
      rw [update_self, update_self]
      exact holds
    · rw [update_of_ne same, update_of_ne same]
      exact rep.holds other
  recycled := recycled

theorem Represents.call (rep : s.Represents lists) (c : QueueCall K Item) :
    (s.call c).1 = (Fifo.call lists c).1 ∧ (s.call c).2.Represents (Fifo.call lists c).2 := by
  cases c with
  | push k item choice =>
    obtain ⟨holds, recycled⟩ := (rep.holds k).push rep.recycled item choice
    exact ⟨rfl, rep.update holds recycled⟩
  | pop k =>
    obtain ⟨answer, holds, recycled⟩ := (rep.holds k).pop rep.recycled
    exact ⟨answer, rep.update holds recycled⟩
  | dropPage choice =>
    exact ⟨rfl, rep.holds, fun page listed => rep.recycled page (mem_of_mem_eraseIdx listed)⟩

theorem Represents.serve (rep : s.Represents lists) (calls : List (QueueCall K Item)) :
    (Fleta.serve Queues.call calls s).1 = (Fleta.serve Fifo.call calls lists).1 ∧
      (Fleta.serve Queues.call calls s).2.Represents (Fleta.serve Fifo.call calls lists).2 := by
  induction calls generalizing s lists with
  | nil => exact ⟨rfl, rep⟩
  | cons c calls ih =>
    obtain ⟨answer, next⟩ := rep.call c
    obtain ⟨answers, last⟩ := ih next
    exact ⟨congrArg₂ cons answer answers, last⟩

/-- Whatever is pushed and popped on whichever queues, every answer is that of a first-in
first-out list, and the size of a queue is the length of its list. -/
theorem fifo (calls : List (QueueCall K Item)) :
    (serve call calls new).1 = (serve Fifo.call calls (fun _ => [] : K → List Item)).1 ∧
      ∀ k, ((serve call calls new).2.queue k).size =
        ((serve Fifo.call calls (fun _ => [] : K → List Item)).2 k).length := by
  have start : (new : Queues K Item).Represents fun _ => [] :=
    ⟨fun _ => ⟨rfl, rfl, fun more => absurd more (Nat.not_lt_zero _)⟩, forall_mem_nil _⟩
  obtain ⟨answers, last⟩ := start.serve calls
  exact ⟨answers, fun k => (last.holds k).size⟩

end Queues

end Fleta
