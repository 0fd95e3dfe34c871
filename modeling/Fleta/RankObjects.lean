import Fleta.RankOrder

/-!
# The objects of the rank table

The source keeps ranks as objects that the list of candidates and `rankMap` share: an object
is changed in place, and its score is stored beside the fields it is computed from. This is
the table with its pointers; `Represents` says which table of ranks it stands for, and every
operation on the objects does to that table what `RankTable` does.
-/

namespace Fleta.Pof

open List

/-- `Rank` of the source, with its stored score. -/
structure RankObject extends Rank where
  score : UInt64
deriving DecidableEq

namespace RankObject

def new (rank : Rank) : RankObject := ⟨rank, rank.score⟩

def update (obj : RankObject) : RankObject := { obj with score := obj.toRank.score }

def setPhase (phase : UInt32) (obj : RankObject) : RankObject := update { obj with phase := phase }

def set (phase : UInt32) (hashSpace : Hash256) (obj : RankObject) : RankObject :=
  update { obj with phase := phase, hashSpace := hashSpace }

/-- `Less` compares the stored scores. -/
def less (obj b : RankObject) : Bool :=
  obj.score < b.score || (obj.score == b.score && (compare obj.address b.address).isLT)

def clone (obj : RankObject) : RankObject := new obj.toRank

instance : Inhabited RankObject := ⟨new ⟨default, [], 0, []⟩⟩

theorem new_less (a b : Rank) : (new a).less (new b) = a.less b := rfl

end RankObject

/-- `RankTable` of the source. A pointer is the number of an allocated object. -/
structure RankStore where
  height : UInt32
  heap : List RankObject
  candidates : List Nat
  rankMap : SortedMap Address Nat

namespace RankStore

def new : RankStore := ⟨0, [], [], .empty⟩

def deref (p : Nat) (rt : RankStore) : RankObject := rt.heap.getD p default

def candidateCount (rt : RankStore) : Nat := rt.candidates.length

def topRank (timeoutCount : Nat) (rt : RankStore) : Except Err RankObject :=
  match rt.candidates[timeoutCount]? with
  | none => .error .insufficientCandidateCount
  | some p => .ok (rt.deref p).clone

def isFormulator (formulator : Address) (publicHash : PublicHash) (rt : RankStore) : Bool :=
  match rt.rankMap.get formulator with
  | none => false
  | some p => (rt.deref p).publicHash == publicHash

def smallestPhase (rt : RankStore) : UInt32 :=
  (rt.candidates.head?.map fun p => (rt.deref p).phase).getD 0

def insertRankToList (p : Nat) (rt : RankStore) : List Nat :=
  let idx := sortSearch rt.candidates.length fun i =>
    (rt.deref p).less (rt.deref (rt.candidates.getD i p))
  rt.candidates.take idx ++ p :: rt.candidates.drop idx

/-- The rank that is added has been allocated just before. -/
def addRank (s : RankObject) (rt : RankStore) : Except Err Unit × RankStore :=
  let p := rt.heap.length
  let rt := { rt with heap := rt.heap ++ [s] }
  if rt.candidates ≠ [] ∧ s.phase < rt.smallestPhase then (.error .invalidPhase, rt)
  else if (rt.rankMap.get s.address).isSome then (.error .existAddress, rt)
  else
    (.ok (), { rt with
      candidates := rt.insertRankToList p
      rankMap := rt.rankMap.put s.address p })

def removeRank (addr : Address) (rt : RankStore) : RankStore :=
  if (rt.rankMap.get addr).isSome then
    { rt with
      candidates := rt.candidates.filter fun p => (rt.deref p).address != addr
      rankMap := rt.rankMap.delete addr }
  else rt

/-- The first candidate is changed in place and moved behind those that are less. -/
def moveFirst (change : RankObject → RankObject) (rt : RankStore) : RankStore :=
  match rt.candidates with
  | [] => rt
  | m :: _ =>
    let rt := { rt with heap := rt.heap.set m (change (rt.deref m)) }
    let idx := sortSearch (rt.candidates.length - 1) fun i =>
      (rt.deref m).less (rt.deref (rt.candidates.getD (i + 1) m))
    { rt with candidates := (rt.candidates.drop 1).take idx ++ m :: rt.candidates.drop (idx + 1) }

def forwardCandidate (rt : RankStore) : RankStore :=
  rt.moveFirst fun m => m.setPhase (m.phase + 2)

def forwardCandidates (timeoutCount : Nat) (rt : RankStore) : Except Err RankStore :=
  if timeoutCount ≥ rt.candidates.length then .error .exceedCandidateCount
  else .ok (forwardCandidate^[timeoutCount] rt)

/-- The source panics when there is no candidate. -/
def forwardTop (lastTableAppendHash : Hash256) (rt : RankStore) : Except Err RankStore :=
  if rt.candidates = [] then .error .panicked
  else
    let rt := rt.moveFirst fun top => top.set (top.phase + 1) lastTableAppendHash
    .ok { rt with height := rt.height + 1 }

/-- The objects of the table are the ranks of `table` with their scores, and `rankMap` points
to exactly the candidates. -/
structure Represents (rt : RankStore) (table : RankTable) : Prop where
  height : rt.height = table.height
  candidates : rt.candidates.map rt.deref = table.candidates.map RankObject.new
  allocated : ∀ p ∈ rt.candidates, p < rt.heap.length
  mapped : ∀ addr p, rt.rankMap.get addr = some p ↔ p ∈ rt.candidates ∧ (rt.deref p).address = addr

namespace Represents

variable {rt : RankStore} {table : RankTable}

theorem new : Represents .new .new := by
  refine ⟨rfl, rfl, ?_, ?_⟩
  · intro p listed
    cases listed
  · intro addr p
    simp [RankStore.new]

section

variable (represents : rt.Represents table)

include represents

theorem length : rt.candidates.length = table.candidates.length := by
  have lengths := congrArg List.length represents.candidates
  simpa using lengths

theorem addresses :
    rt.candidates.map (fun p => (rt.deref p).address) = table.candidates.map Rank.address := by
  have mapped := congrArg (map fun obj : RankObject => obj.address) represents.candidates
  simpa [Function.comp_def, RankObject.new] using mapped

variable {s : Rank} {p : Nat}

theorem getD (last : rt.deref p = RankObject.new s) (i : Nat) :
    rt.deref (rt.candidates.getD i p) = RankObject.new (table.candidates.getD i s) := by
  calc rt.deref (rt.candidates.getD i p)
      = (rt.candidates.map rt.deref).getD i (rt.deref p) := (getD_map _ _ rt.deref).symm
    _ = (table.candidates.map RankObject.new).getD i (RankObject.new s) := by
        rw [represents.candidates, last]
    _ = RankObject.new (table.candidates.getD i s) := getD_map _ _ RankObject.new

theorem smallestPhase : rt.smallestPhase = table.smallestPhase := by
  have heads := congrArg head? represents.candidates
  rw [head?_map, head?_map] at heads
  have phases := congrArg (Option.map fun obj : RankObject => obj.phase) heads
  rw [Option.map_map, Option.map_map] at phases
  exact congrArg (fun phase => Option.getD phase 0) phases

theorem isSome_iff {addr : Address} :
    (rt.rankMap.get addr).isSome = true ↔ addr ∈ table.candidates.map Rank.address := by
  rw [← represents.addresses, mem_map, Option.isSome_iff_exists]
  simp only [represents.mapped]

theorem congr_heap {heap : List RankObject} (longer : rt.heap.length ≤ heap.length)
    (same : ∀ p ∈ rt.candidates, heap.getD p default = rt.deref p) :
    Represents { rt with heap := heap } table where
  height := represents.height
  candidates := by
    rw [← represents.candidates]
    exact map_congr_left same
  allocated p listed := Nat.lt_of_lt_of_le (represents.allocated p listed) longer
  mapped addr p := by
    rw [represents.mapped]
    constructor
    · rintro ⟨listed, address⟩
      exact ⟨listed, (congrArg (·.address) (same p listed)).trans address⟩
    · rintro ⟨listed, address⟩
      exact ⟨listed, (congrArg (·.address) (same p listed)).symm.trans address⟩

theorem alloc (s : RankObject) : Represents { rt with heap := rt.heap ++ [s] } table := by
  apply represents.congr_heap
  · rw [length_append]
    omega
  · intro p listed
    exact getD_append _ _ _ _ (represents.allocated p listed)

theorem join {list : List Nat}
    {ranks : List Rank} (allocated : p < rt.heap.length) (object : rt.deref p = RankObject.new s)
    (fresh : s.address ∉ table.candidates.map Rank.address)
    (member : ∀ q, q ∈ list ↔ q = p ∨ q ∈ rt.candidates)
    (objects : list.map rt.deref = ranks.map RankObject.new) :
    Represents { rt with candidates := list, rankMap := rt.rankMap.put s.address p }
      { table with candidates := ranks } := by
  refine ⟨represents.height, objects, ?_, ?_⟩
  · intro q listed
    rcases (member q).mp listed with rfl | before
    · exact allocated
    · exact represents.allocated q before
  · intro addr q
    change (rt.rankMap.put s.address p).get addr = some q ↔ q ∈ list ∧ (rt.deref q).address = addr
    have own : (rt.deref p).address = s.address := by rw [object]; rfl
    rw [member, SortedMap.get_put]
    by_cases same : s.address = addr
    · rw [if_pos same]
      subst same
      constructor
      · rintro ⟨⟩
        exact ⟨.inl rfl, own⟩
      · rintro ⟨rfl | before, address⟩
        · rfl
        · refine absurd ?_ fresh
          rw [← represents.addresses, mem_map]
          exact ⟨q, before, address⟩
    · rw [if_neg same, represents.mapped]
      constructor
      · rintro ⟨before, address⟩
        exact ⟨.inr before, address⟩
      · rintro ⟨rfl | before, address⟩
        · exact absurd (own.symm.trans address) same
        · exact ⟨before, address⟩

theorem insert (allocated : p < rt.heap.length) (object : rt.deref p = RankObject.new s)
    (fresh : s.address ∉ table.candidates.map Rank.address) :
    Represents { rt with
        candidates := rt.insertRankToList p
        rankMap := rt.rankMap.put s.address p }
      { table with candidates := RankTable.insertRankToList table.candidates s } := by
  have place : (fun i => (rt.deref p).less (rt.deref (rt.candidates.getD i p))) =
      fun i => s.less (table.candidates.getD i s) := by
    funext i
    rw [represents.getD object, object, RankObject.new_less]
  apply represents.join allocated object fresh
  · intro q
    unfold insertRankToList
    rw [perm_middle.mem_iff, mem_cons, take_append_drop]
  · unfold insertRankToList RankTable.insertRankToList
    rw [place, represents.length]
    rw [map_append, map_cons, map_take, map_drop, represents.candidates,
      object, map_append, map_cons, map_take, map_drop]

theorem addRank (s : Rank) :
    (rt.addRank (.new s)).1 = (table.addRank s).1 ∧
      (rt.addRank (.new s)).2.Represents (table.addRank s).2 := by
  have extended := represents.alloc (.new s)
  have lower : (rt.candidates ≠ [] ∧ (RankObject.new s).phase <
      RankStore.smallestPhase { rt with heap := rt.heap ++ [RankObject.new s] }) ↔
      (table.candidates ≠ [] ∧ s.phase < table.smallestPhase) := by
    rw [extended.smallestPhase, Ne, Ne, ← length_eq_zero_iff, ← length_eq_zero_iff,
      represents.length]
    rfl
  have known : (rt.rankMap.get (RankObject.new s).address).isSome = true ↔
      (table.rankOf s.address).isSome = true := by
    rw [RankTable.rankOf_isSome_iff]
    exact represents.isSome_iff
  unfold RankStore.addRank RankTable.addRank
  by_cases low : table.candidates ≠ [] ∧ s.phase < table.smallestPhase
  · rw [if_pos (lower.mpr low), if_pos low]
    exact ⟨rfl, extended⟩
  · rw [if_neg (fun below => low (lower.mp below)), if_neg low]
    by_cases exist : (table.rankOf s.address).isSome = true
    · rw [if_pos (known.mpr exist), if_pos exist]
      exact ⟨rfl, extended⟩
    · rw [if_neg (fun listed => exist (known.mp listed)), if_neg exist]
      refine ⟨rfl, extended.insert ?_ ?_ ?_⟩
      · simp
      · simp [deref, RankObject.new]
      · rwa [RankTable.rankOf_isSome_iff] at exist

variable (addr : Address)

theorem filter :
    (rt.candidates.filter fun p => (rt.deref p).address != addr).map rt.deref =
      (table.candidates.filter fun s => s.address != addr).map RankObject.new := by
  have left : (fun p => (rt.deref p).address != addr) =
      (fun obj : RankObject => obj.address != addr) ∘ rt.deref := rfl
  have right : (fun s : Rank => s.address != addr) =
      (fun obj : RankObject => obj.address != addr) ∘ RankObject.new := rfl
  rw [left, right, ← filter_map, ← filter_map, represents.candidates]

theorem removeRank : (rt.removeRank addr).Represents (table.removeRank addr) := by
  unfold RankStore.removeRank
  by_cases listed : (rt.rankMap.get addr).isSome = true
  · rw [if_pos listed]
    refine ⟨represents.height, represents.filter addr, ?_, ?_⟩
    · intro p kept
      exact represents.allocated p (mem_of_mem_filter kept)
    · intro other p
      change (rt.rankMap.delete addr).get other = some p ↔
        p ∈ rt.candidates.filter (fun p => (rt.deref p).address != addr) ∧
          (rt.deref p).address = other
      rw [SortedMap.get_delete, mem_filter, bne_iff_ne]
      by_cases same : addr = other
      · rw [if_pos same]
        subst same
        constructor
        · intro found
          cases found
        · rintro ⟨⟨_, kept⟩, address⟩
          exact absurd address kept
      · rw [if_neg same, represents.mapped]
        constructor
        · rintro ⟨member, address⟩
          refine ⟨⟨member, ?_⟩, address⟩
          rw [address]
          exact fun equal => same equal.symm
        · rintro ⟨⟨member, _⟩, address⟩
          exact ⟨member, address⟩
  · rw [if_neg listed]
    rw [represents.isSome_iff] at listed
    have all : table.candidates.filter (fun s => s.address != addr) = table.candidates := by
      rw [filter_eq_self]
      intro s member
      rw [bne_iff_ne]
      rintro rfl
      exact listed (mem_map_of_mem member)
    unfold RankTable.removeRank
    rw [all]
    exact represents

theorem publicHash :
    (rt.rankMap.get addr).map (fun p => (rt.deref p).publicHash) =
      (table.rankOf addr).map Rank.publicHash := by
  cases found : table.rankOf addr with
  | none =>
    have absent : ¬(rt.rankMap.get addr).isSome = true := by
      rw [represents.isSome_iff, ← RankTable.rankOf_isSome_iff, found]
      simp
    rw [Option.not_isSome_iff_eq_none.mp absent]
    rfl
  | some s =>
    obtain ⟨listed, address⟩ := RankTable.rankOf_some found
    have object : RankObject.new s ∈ rt.candidates.map rt.deref := by
      rw [represents.candidates]
      exact mem_map_of_mem listed
    obtain ⟨p, member, value⟩ := mem_map.mp object
    have pointer : rt.rankMap.get addr = some p := by
      rw [represents.mapped, value]
      exact ⟨member, address⟩
    rw [pointer, Option.map_some, value]
    rfl

theorem isFormulator (publicHash : PublicHash) :
    rt.isFormulator addr publicHash =
      ((table.rankOf addr).map Rank.publicHash == some publicHash) := by
  have hashes := represents.publicHash addr
  rw [← hashes, RankStore.isFormulator]
  cases rt.rankMap.get addr with
  | none => rfl
  | some p => rfl

theorem topRank (timeoutCount : Nat) :
    rt.topRank timeoutCount = (table.topRank timeoutCount).map RankObject.new := by
  have entry := congrArg (fun list : List RankObject => list[timeoutCount]?) represents.candidates
  simp only [getElem?_map] at entry
  unfold RankStore.topRank RankTable.topRank
  cases pointer : rt.candidates[timeoutCount]? with
  | none =>
    rw [pointer] at entry
    cases rank : table.candidates[timeoutCount]? with
    | none => rfl
    | some s =>
      rw [rank] at entry
      cases entry
  | some p =>
    rw [pointer] at entry
    cases rank : table.candidates[timeoutCount]? with
    | none =>
      rw [rank] at entry
      cases entry
    | some s =>
      rw [rank] at entry
      have value : rt.deref p = RankObject.new s := Option.some.inj entry
      dsimp only
      rw [value]
      rfl

end

theorem filter_first {top : Rank} {rest : List Rank} (ordered : Ordered (top :: rest)) :
    (top :: rest).filter (fun s => s.address != top.address) = rest := by
  rw [filter_cons_of_neg (by simp), filter_eq_self]
  intro s later
  rw [bne_iff_ne]
  intro same
  exact (nodup_cons.mp ordered.distinct).1 (same ▸ mem_map_of_mem later)

variable (represents : rt.Represents table)

include represents

variable (ordered : Ordered table.candidates)

include ordered

variable {rest : List Rank}

theorem takeFirst {top : Rank} (first : table.candidates = top :: rest) :
    ∃ m ps, rt.candidates = m :: ps ∧ rt.deref m = RankObject.new top ∧ m ∉ ps ∧
      Represents { rt with candidates := ps, rankMap := rt.rankMap.delete top.address }
        { table with candidates := rest } := by
  have removed := represents.removeRank top.address
  have distinct := ordered.distinct
  have all := represents.candidates
  rw [← represents.addresses] at distinct
  cases pointers : rt.candidates with
  | nil =>
    rw [first, pointers] at all
    cases all
  | cons m ps =>
    rw [first, pointers, map_cons, map_cons, cons.injEq] at all
    rw [pointers, map_cons, nodup_cons] at distinct
    have address : (rt.deref m).address = top.address := by rw [all.1]; rfl
    have known : (rt.rankMap.get top.address).isSome = true := by
      rw [represents.isSome_iff, first]
      exact mem_cons_self
    have later : rt.candidates.filter (fun p => (rt.deref p).address != top.address) = ps := by
      rw [pointers, filter_cons_of_neg (by simp [address]), filter_eq_self]
      intro p listed
      rw [bne_iff_ne, ← address]
      intro same
      exact distinct.1 (same ▸ mem_map_of_mem listed)
    refine ⟨m, ps, rfl, all.1, ?_, ?_⟩
    · intro listed
      exact distinct.1 (mem_map_of_mem listed)
    · rw [RankStore.removeRank, if_pos known, later, RankTable.removeRank, first,
        filter_first (first ▸ ordered)] at removed
      exact removed

theorem moveFirst {top raised : Rank} (first : table.candidates = top :: rest)
    {change : RankObject → RankObject} (changed : change (.new top) = .new raised)
    (address : raised.address = top.address) :
    (rt.moveFirst change).Represents
      { table with candidates := RankTable.insertRankToList rest raised } := by
  obtain ⟨m, ps, pointers, object, absent, taken⟩ := represents.takeFirst ordered first
  have allocated : m < rt.heap.length := by
    apply represents.allocated
    rw [pointers]
    exact mem_cons_self
  set heap := rt.heap.set m (change (rt.deref m)) with heap_eq
  have length : heap.length = rt.heap.length := by rw [heap_eq, length_set]
  have written : heap.getD m default = RankObject.new raised := by
    rw [heap_eq, object, changed, getD_eq_getElem _ _ (by rwa [length_set]), getElem_set_self]
  have other : ∀ p ∈ ps, heap.getD p default = rt.deref p := by
    intro p listed
    have apart : m ≠ p := by
      rintro rfl
      exact absent listed
    change heap.getD p default = rt.heap.getD p default
    rw [heap_eq, getD_eq_getElem?_getD, getElem?_set_ne apart, ← getD_eq_getElem?_getD]
  have fresh : raised.address ∉ rest.map Rank.address := by
    have distinct := ordered.distinct
    rw [first, map_cons, nodup_cons] at distinct
    rw [address]
    exact distinct.1
  have changedHeap := taken.congr_heap (Nat.le_of_eq length.symm) other
  have moved := changedHeap.insert (length.symm ▸ allocated) written fresh
  -- The map never loses the pointer.
  have map : (rt.rankMap.delete top.address).put raised.address m = rt.rankMap := by
    apply SortedMap.ext_get
    intro addr
    rw [address, SortedMap.get_put]
    by_cases same : top.address = addr
    · subst same
      rw [if_pos rfl, eq_comm, represents.mapped, object, pointers]
      exact ⟨mem_cons_self, rfl⟩
    · rw [if_neg same, SortedMap.get_delete_of_ne _ same]
  rw [map] at moved
  unfold RankStore.moveFirst
  rw [pointers]
  exact moved

theorem forwardCandidate :
    rt.forwardCandidate.Represents
      { table with candidates := RankTable.forwardCandidate table.candidates } := by
  cases first : table.candidates with
  | nil =>
    have none : rt.candidates = [] := by
      rw [← length_eq_zero_iff, represents.length, first]
      rfl
    have same : ({ table with candidates := [] } : RankTable) = table := by rw [← first]
    rw [RankStore.forwardCandidate, RankStore.moveFirst, none]
    dsimp only [RankTable.forwardCandidate]
    rw [same]
    exact represents
  | cons top rest => exact represents.moveFirst ordered first rfl rfl

theorem forwardCandidate_iterate (moves : Nat) :
    (RankStore.forwardCandidate^[moves] rt).Represents
        { table with candidates := RankTable.forwardCandidate^[moves] table.candidates } ∧
      Ordered (RankTable.forwardCandidate^[moves] table.candidates) := by
  induction moves with
  | zero => exact ⟨represents, ordered⟩
  | succ moves ih =>
    rw [Function.iterate_succ_apply', Function.iterate_succ_apply']
    exact ⟨ih.1.forwardCandidate ih.2, RankTable.forwardCandidate_ordered ih.2⟩

end Represents

def Agree : Except Err RankStore → Except Err RankTable → Prop
  | .ok rt, .ok table => rt.Represents table ∧ Ordered table.candidates
  | .error err, .error err' => err = err'
  | _, _ => False

variable {rt : RankStore} {table : RankTable}

theorem Represents.forwardCandidates (represents : rt.Represents table)
    (ordered : Ordered table.candidates) (timeoutCount : Nat) :
    Agree (rt.forwardCandidates timeoutCount) (table.forwardCandidates timeoutCount) := by
  unfold RankStore.forwardCandidates RankTable.forwardCandidates
  rw [represents.length]
  split
  · rfl
  · exact represents.forwardCandidate_iterate ordered timeoutCount

theorem Represents.forwardTop (represents : rt.Represents table)
    (ordered : Ordered table.candidates) (hash : Hash256) :
    Agree (rt.forwardTop hash) (table.forwardTop hash) := by
  unfold RankStore.forwardTop RankTable.forwardTop
  cases first : table.candidates with
  | nil =>
    have none : rt.candidates = [] := by
      rw [← length_eq_zero_iff, represents.length, first]
      rfl
    rw [if_pos none]
    rfl
  | cons top rest =>
    have some : rt.candidates ≠ [] := by
      intro none
      have length := represents.length
      rw [none, first] at length
      cases length
    let raised : Rank := { top with phase := top.phase + 1, hashSpace := hash }
    have moved : (rt.moveFirst fun top => top.set (top.phase + 1) hash).Represents
        { table with candidates := RankTable.insertRankToList rest raised } :=
      represents.moveFirst ordered first rfl rfl
    rw [if_neg some]
    refine ⟨⟨?_, moved.candidates, moved.allocated, moved.mapped⟩, ?_⟩
    · rw [moved.height]
    · rw [first] at ordered
      exact ordered.reinsert rfl

end RankStore

end Fleta.Pof
