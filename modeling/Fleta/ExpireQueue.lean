import Fleta.Primitives

/-!
# The expiry queue

Items expire from one group to the next. The worker of a group takes the expired items out
under the lock, and puts them into the next group under the lock again; in between nobody
but the worker knows them, and `Remove` does not find them.
-/

namespace Fleta

variable {Item : Type}

structure GroupItem (Item : Type) where
  expiredAt : Int
  item : Item

/-- A group with its worker. The list is the `expiredMap` of the pass that the worker is in,
and empty between two passes. -/
structure ExpireGroup (Item : Type) where
  interval : Int
  itemMap : SortedMap Bytes (GroupItem Item)
  expired : List (Bytes × Item)

namespace ExpireGroup

def push (key : Bytes) (item : Item) (now : Int) (g : ExpireGroup Item) : ExpireGroup Item :=
  { g with itemMap := g.itemMap.put key ⟨now + g.interval, item⟩ }

def remove (key : Bytes) (g : ExpireGroup Item) : ExpireGroup Item :=
  { g with itemMap := g.itemMap.delete key }

def takeExpired (now : Int) (g : ExpireGroup Item) : ExpireGroup Item :=
  if g.expired = [] then
    let expired := g.itemMap.eachAll.filter fun entry => entry.2.expiredAt ≤ now
    { g with
      itemMap := (expired.map Prod.fst).foldl (·.delete ·) g.itemMap
      expired := expired.map fun entry => (entry.1, entry.2.item) }
  else g

/-- The clock is read again for every item. -/
def insertAll (clock : Bytes → Int) (items : List (Bytes × Item)) (g : ExpireGroup Item) :
    ExpireGroup Item :=
  let insert (map : SortedMap Bytes (GroupItem Item)) (entry : Bytes × Item) :=
    map.put entry.1 ⟨clock entry.1 + g.interval, entry.2⟩
  { g with itemMap := items.foldl insert g.itemMap }

end ExpireGroup

abbrev ExpireQueue (Item : Type) := List (ExpireGroup Item)

namespace ExpireQueue

/-- The queue after one `AddGroup` for each interval. -/
def new (intervals : List Int) : ExpireQueue Item :=
  intervals.map fun interval => ⟨interval, .empty, []⟩

/-- A call, or one of the two locked steps of a worker that change a group. -/
inductive Step (Item : Type) where
  | push (key : Bytes) (item : Item) (now : Int)
  | remove (key : Bytes)
  | takeExpired (idx : Nat) (now : Int)
  | forward (idx : Nat) (clock : Bytes → Int)

def forward (idx : Nat) (clock : Bytes → Int) (q : ExpireQueue Item) : ExpireQueue Item :=
  match q[idx]? with
  | none => q
  | some g => (q.modify (idx + 1) (·.insertAll clock g.expired)).modify idx ({ · with expired := [] })

def Step.apply (q : ExpireQueue Item) : Step Item → ExpireQueue Item
  | push key item now => q.modify 0 (·.push key item now)
  | remove key => q.map (·.remove key)
  | takeExpired idx now => q.modify idx (·.takeExpired now)
  | forward idx clock => ExpireQueue.forward idx clock q

def run (steps : List (Step Item)) (q : ExpireQueue Item) : ExpireQueue Item := steps.foldl Step.apply q

def Holds (key : Bytes) (q : ExpireQueue Item) : Prop := ∃ g ∈ q, g.itemMap.get key ≠ none

/-- No group ever holds the key after `Remove`, unless it is pushed again. -/
def RemovedForGood (key : Bytes) (q : ExpireQueue Item) : Prop :=
  ∀ later : List (Step Item), (∀ item now, .push key item now ∉ later) →
    ¬Holds key (run later (Step.apply q (.remove key)))

/-- The worker of a group that has a next one is between its two locked steps. -/
def Carried (key : Bytes) (q : ExpireQueue Item) : Prop :=
  ∃ idx g, q[idx]? = some g ∧ idx + 1 < q.length ∧ key ∈ g.expired.map Prod.fst

/-- Neither in a group nor with a worker that brings it back. -/
def Gone (key : Bytes) (q : ExpireQueue Item) : Prop :=
  ∀ idx g, q[idx]? = some g →
    g.itemMap.get key = none ∧ (idx + 1 < q.length → key ∉ g.expired.map Prod.fst)

variable {key : Bytes} {q : ExpireQueue Item}

theorem get_insertAll_eq_none (clock : Bytes → Int) (items : List (Bytes × Item))
    (g : ExpireGroup Item) : (g.insertAll clock items).itemMap.get key = none ↔
      g.itemMap.get key = none ∧ key ∉ items.map Prod.fst := by
  unfold ExpireGroup.insertAll
  dsimp only
  generalize g.itemMap = map
  induction items generalizing map with
  | nil => simp
  | cons entry rest ih =>
    rw [List.foldl_cons, ih, SortedMap.get_put]
    by_cases same : entry.1 = key
    · simp [same]
    · simp [same, Ne.symm same]

theorem Gone.modify (gone : Gone key q) (idx : Nat) {f : ExpireGroup Item → ExpireGroup Item}
    (absent : ∀ g, q[idx]? = some g → g.itemMap.get key = none → (f g).itemMap.get key = none)
    (left : ∀ g, g.itemMap.get key = none → key ∈ (f g).expired.map Prod.fst →
      key ∈ g.expired.map Prod.fst) : Gone key (q.modify idx f) := by
  intro j g found
  rw [List.length_modify]
  rw [List.getElem?_modify] at found
  obtain ⟨old, before, rfl⟩ := Option.map_eq_some_iff.mp found
  obtain ⟨none, notCarried⟩ := gone j old before
  by_cases same : idx = j
  · subst same
    rw [if_pos rfl]
    exact ⟨absent old before none, fun next carried => notCarried next (left old none carried)⟩
  · rw [if_neg same]
    exact ⟨none, notCarried⟩

theorem takeExpired_absent {now : Int} {g : ExpireGroup Item} (absent : g.itemMap.get key = none) :
    (g.takeExpired now).itemMap.get key = none ∧
      (key ∈ (g.takeExpired now).expired.map Prod.fst → key ∈ g.expired.map Prod.fst) := by
  unfold ExpireGroup.takeExpired
  split
  · dsimp only
    rw [SortedMap.get_foldl_delete, absent, ite_self]
    refine ⟨rfl, fun taken => ?_⟩
    rw [List.map_map] at taken
    obtain ⟨⟨_, item⟩, listed, rfl⟩ := List.mem_map.mp taken
    have held := (SortedMap.mem_eachAll _ _ _).mp (List.mem_of_mem_filter listed)
    exact absurd (absent.symm.trans held) (Option.some_ne_none item).symm
  · exact ⟨absent, id⟩

theorem Gone.apply (gone : Gone key q) {step : Step Item}
    (other : ∀ item now, step ≠ .push key item now) : Gone key (step.apply q) := by
  cases step with
  | push added item now =>
    refine gone.modify 0 (fun g _ absent => ?_) fun g _ listed => listed
    have ne : added ≠ key := by
      rintro rfl
      exact other item now rfl
    exact (SortedMap.get_put_of_ne _ _ ne).trans absent
  | remove removed =>
    intro j g found
    rw [Step.apply, List.getElem?_map, Option.map_eq_some_iff] at found
    obtain ⟨old, found, rfl⟩ := found
    rw [Step.apply, List.length_map]
    refine ⟨?_, (gone j old found).2⟩
    rw [ExpireGroup.remove, SortedMap.get_delete, (gone j old found).1, ite_self]
  | takeExpired idx now =>
    exact gone.modify idx (fun g _ absent => (takeExpired_absent absent).1)
      fun g absent => (takeExpired_absent absent).2
  | forward idx clock =>
    rw [Step.apply, ExpireQueue.forward]
    split
    · exact gone
    · rename_i g found
      -- a group with a next one has a worker that does not bring the key
      have passed : Gone key (q.modify (idx + 1) (·.insertAll clock g.expired)) := by
        refine gone.modify _ (fun next present absent => ?_) fun next _ listed => listed
        have inside := (List.getElem?_eq_some_iff.mp present).1
        exact (get_insertAll_eq_none clock _ next).mpr ⟨absent, (gone idx g found).2 inside⟩
      refine passed.modify idx (fun _ _ absent => absent) ?_
      rintro _ _ ⟨⟩

theorem Gone.run (gone : Gone key q) {later : List (Step Item)}
    (other : ∀ item now, .push key item now ∉ later) : Gone key (run later q) := by
  induction later generalizing q with
  | nil => exact gone
  | cons step rest ih =>
    apply ih
    · apply gone.apply
      rintro item now rfl
      exact other item now List.mem_cons_self
    · exact fun item now listed => other item now (List.mem_cons_of_mem _ listed)

theorem Gone.not_holds (gone : Gone key q) : ¬Holds key q := by
  rintro ⟨g, member, held⟩
  obtain ⟨idx, found⟩ := List.getElem?_of_mem member
  exact held (gone idx g found).1

theorem gone_remove_of_not_carried (free : ¬Carried key q) :
    Gone key (Step.apply q (.remove key)) := by
  intro idx g found
  rw [Step.apply, List.getElem?_map, Option.map_eq_some_iff] at found
  obtain ⟨old, found, rfl⟩ := found
  rw [Step.apply, List.length_map]
  exact ⟨SortedMap.get_delete_self _ _, fun next carried => free ⟨idx, old, found, next, carried⟩⟩

/-- The worker puts the key back, whatever `Remove` has deleted. -/
theorem Carried.not_removedForGood (carries : Carried key q) : ¬RemovedForGood key q := by
  obtain ⟨idx, g, found, next, carried⟩ := carries
  intro final
  apply final [.forward idx fun _ => 0] (by simp)
  have removed : (q.map (·.remove key))[idx]? = some (g.remove key) := by
    rw [List.getElem?_map, found]
    rfl
  have after : (forward idx (fun _ => 0) (q.map (·.remove key)))[idx + 1]? =
      some ((q[idx + 1].remove key).insertAll (fun _ => 0) g.expired) := by
    unfold forward
    rw [removed]
    simp [next, ExpireGroup.remove]
  refine ⟨_, List.mem_of_getElem? after, fun absent => ?_⟩
  exact ((get_insertAll_eq_none _ _ _).mp absent).2 carried

/-- `Remove` is final exactly if no worker is about to put the key into its next group. -/
theorem removal_final_iff (intervals : List Int) (steps : List (Step Item)) (key : Bytes) :
    RemovedForGood key (run steps (new intervals)) ↔ ¬Carried key (run steps (new intervals)) := by
  constructor
  · intro final carries
    exact carries.not_removedForGood final
  · intro free later other
    exact ((gone_remove_of_not_carried free).run other).not_holds

end ExpireQueue

namespace Instances

open ExpireQueue

def passing : List (ExpireQueue.Step Unit) := [.push [1] () 0, .takeExpired 0 60]

/-- The worker of the first group has taken the key out when it is removed, and puts it into
the second group afterwards. -/
theorem removed_key_returns : ¬RemovedForGood [1] (run passing (new [60, 600])) := by
  have carried : Carried [1] (run passing (new [60, 600])) := ⟨0, _, rfl, by decide, by decide⟩
  exact carried.not_removedForGood

end Instances

end Fleta
