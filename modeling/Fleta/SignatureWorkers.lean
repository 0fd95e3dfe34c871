import Fleta.Instances

/-!
# The workers of the signature check

`validateTransactionSignatures` splits the transactions of a block into one slice for every
processor and runs a worker on each slice, which writes what it computes for a transaction
at the place of the transaction. The start of a slice is not limited by the number of
transactions, but its end is: a slice expression whose start lies behind its end panics.
-/

namespace Fleta

open List

variable {α β : Type}

/-- Small blocks are not split. -/
def workerCount (n cpus : Nat) : Nat := if n < 1000 then 1 else cpus

/-- `len(b.Transactions) / cpuCnt`, rounded up. -/
def txUnit (n workers : Nat) : Nat :=
  if n % workers ≠ 0 then n / workers + 1 else n / workers

def sliceStart (unit i : Nat) : Nat := i * unit

def sliceStop (n unit i : Nat) : Nat := if (i + 1) * unit > n then n else (i + 1) * unit

/-- `list[start:stop]`, which panics when the bounds are not in order. -/
def goSlice (list : List α) (start stop : Nat) : Option (List α) :=
  if start ≤ stop ∧ stop ≤ list.length then some ((list.take stop).drop start) else none

def writeFrom (start : Nat) (values : List β) (array : List (Option β)) : List (Option β) :=
  match values with
  | [] => array
  | value :: rest => writeFrom (start + 1) rest (array.set start (some value))

/-- The work of all workers on a list: the array that they fill, one of their errors
(`first` is the one that arrives first), or a panic. -/
def runWorkers (first : List Err → Err) (cpus : Nat) (work : α → Except Err β) (list : List α) :
    Option (Except Err (List (Option β))) :=
  let workers := workerCount list.length cpus
  let unit := txUnit list.length workers
  match (range workers).mapM fun i =>
      (goSlice list (sliceStart unit i) (sliceStop list.length unit i)).map
        fun slice => (sliceStart unit i, slice.mapM work) with
  | none => none
  | some results =>
    match results.filterMap fun result =>
        match result.2 with
        | .error err => some err
        | .ok _ => none with
    | [] =>
      some <| .ok <| results.foldl (fun array result =>
          match result.2 with
          | .ok values => writeFrom result.1 values array
          | .error _ => array)
        (replicate list.length none)
    | errs => some (.error (first errs))

/-- All slices are in range, and every index is in exactly one of them. -/
structure Partitions (n cpus : Nat) : Prop where
  inRange : ∀ i, i < workerCount n cpus →
    sliceStart (txUnit n (workerCount n cpus)) i ≤ sliceStop n (txUnit n (workerCount n cpus)) i ∧
      sliceStop n (txUnit n (workerCount n cpus)) i ≤ n
  once : ∀ index, index < n → ∃! i, i < workerCount n cpus ∧
    sliceStart (txUnit n (workerCount n cpus)) i ≤ index ∧
      index < sliceStop n (txUnit n (workerCount n cpus)) i

section Unit

variable {n workers : Nat}

theorem txUnit_covers (positive : 0 < workers) : n ≤ workers * txUnit n workers := by
  have parts := Nat.div_add_mod n workers
  have rest := Nat.mod_lt n positive
  unfold txUnit
  split
  · rw [Nat.mul_add, Nat.mul_one]
    omega
  · omega

theorem txUnit_pos (some : 0 < n) (positive : 0 < workers) : 0 < txUnit n workers := by
  have covers : n ≤ workers * txUnit n workers := txUnit_covers positive
  apply Nat.pos_of_ne_zero
  intro zero
  rw [zero, Nat.mul_zero] at covers
  omega

end Unit

section Partition

variable {n cpus : Nat}

theorem workerCount_pos (cpu : 0 < cpus) : 0 < workerCount n cpus := by
  unfold workerCount
  split
  · exact Nat.one_pos
  · exact cpu

theorem sliceStop_le (unit i : Nat) : sliceStop n unit i ≤ n := by
  unfold sliceStop
  split <;> omega

theorem sliceStart_le_sliceStop_iff (unit i : Nat) :
    sliceStart unit i ≤ sliceStop n unit i ↔ i * unit ≤ n := by
  unfold sliceStart sliceStop
  have next : (i + 1) * unit = i * unit + unit := Nat.succ_mul i unit
  split <;> omega

theorem starts_in_range_iff {unit workers : Nat} (positive : 0 < workers) :
    (∀ i, i < workers → i * unit ≤ n) ↔ (workers - 1) * unit ≤ n := by
  constructor
  · intro all
    exact all (workers - 1) (by omega)
  · intro last i below
    have earlier : i * unit ≤ (workers - 1) * unit := Nat.mul_le_mul_right unit (by omega)
    omega

theorem mem_slice_iff {unit index i : Nat} (positive : 0 < unit) (below : index < n) :
    sliceStart unit i ≤ index ∧ index < sliceStop n unit i ↔ index / unit = i := by
  have next : (i + 1) * unit = i * unit + unit := Nat.succ_mul i unit
  rw [Nat.div_eq_iff positive, sliceStart, sliceStop]
  split <;> omega

theorem partitions_iff (some : 0 < n) (cpu : 0 < cpus) :
    Partitions n cpus ↔
      (workerCount n cpus - 1) * txUnit n (workerCount n cpus) ≤ n := by
  have positive : 0 < workerCount n cpus := workerCount_pos cpu
  have unit := txUnit_pos some positive
  have covers := txUnit_covers (n := n) positive
  constructor
  · intro partitions
    rw [← starts_in_range_iff positive]
    intro i below
    exact (sliceStart_le_sliceStop_iff _ i).mp (partitions.inRange i below).1
  · intro last
    have starts := (starts_in_range_iff positive).mpr last
    constructor
    · intro i below
      exact ⟨(sliceStart_le_sliceStop_iff _ i).mpr (starts i below), sliceStop_le _ i⟩
    · intro index below
      refine ⟨index / txUnit n (workerCount n cpus), ⟨?_, ?_⟩, ?_⟩
      · rw [Nat.div_lt_iff_lt_mul unit]
        omega
      · exact (mem_slice_iff unit below).mpr rfl
      · intro i found
        exact ((mem_slice_iff unit below).mp found.2).symm

end Partition

section Run

variable {f : α → Option β}

theorem mapM_eq_some_map {g : α → β} {list : List α}
    (returns : ∀ item ∈ list, f item = some (g item)) : list.mapM f = some (list.map g) := by
  induction list with
  | nil => rfl
  | cons item rest ih =>
    have later := ih fun other mem => returns other (mem_cons_of_mem _ mem)
    rw [mapM_cons, returns item mem_cons_self, later]
    rfl

theorem mapM_eq_none {list : List α} {item : α} (mem : item ∈ list)
    (panics : f item = none) : list.mapM f = none := by
  induction list with
  | nil => cases mem
  | cons head rest ih =>
    rw [mapM_cons]
    rcases mem_cons.mp mem with here | later
    · rw [← here, panics]
      rfl
    · rw [ih later]
      cases f head <;> rfl

theorem writeFrom_replicate (values : List β) (front : List (Option β)) (room : Nat)
    (fits : values.length ≤ room) :
    writeFrom front.length values (front ++ replicate room none) =
      front ++ values.map some ++ replicate (room - values.length) none := by
  induction values generalizing front room with
  | nil => simp [writeFrom]
  | cons value values ih =>
    rw [length_cons] at fits
    obtain ⟨room, rfl⟩ := Nat.exists_eq_add_one.mpr (Nat.zero_lt_of_lt fits)
    have placed : (front ++ replicate (room + 1) none).set front.length (some value) =
        (front ++ [some value]) ++ replicate room none := by
      simp [replicate_succ]
    have next := ih (front ++ [some value]) room (by omega)
    rw [length_append, length_singleton] at next
    rw [writeFrom, placed, next]
    simp

variable {first : List Err → Err} {cpus : Nat} {work : α → Except Err β} {list : List α}

/-- A slice whose start lies behind its end panics. -/
theorem runWorkers_panics {i : Nat} (below : i < workerCount list.length cpus)
    (behind : list.length < i * txUnit list.length (workerCount list.length cpus)) :
    runWorkers first cpus work list = none := by
  unfold runWorkers
  have panics : goSlice list (sliceStart (txUnit list.length (workerCount list.length cpus)) i)
      (sliceStop list.length (txUnit list.length (workerCount list.length cpus)) i) = none := by
    rw [goSlice, if_neg]
    intro ordered
    rw [sliceStart_le_sliceStop_iff] at ordered
    omega
  dsimp only
  rw [mapM_eq_none (mem_range.mpr below) (by rw [panics]; rfl)]

theorem runWorkers_slices
    (starts : ∀ i, i < workerCount list.length cpus →
      i * txUnit list.length (workerCount list.length cpus) ≤ list.length) :
    ((range (workerCount list.length cpus)).mapM fun i =>
      (goSlice list (sliceStart (txUnit list.length (workerCount list.length cpus)) i)
        (sliceStop list.length (txUnit list.length (workerCount list.length cpus)) i)).map
          fun slice => (sliceStart (txUnit list.length (workerCount list.length cpus)) i,
            slice.mapM work)) =
      some ((range (workerCount list.length cpus)).map fun i =>
        (sliceStart (txUnit list.length (workerCount list.length cpus)) i,
          ((list.take (sliceStop list.length
            (txUnit list.length (workerCount list.length cpus)) i)).drop
              (sliceStart (txUnit list.length (workerCount list.length cpus)) i)).mapM work)) := by
  apply mapM_eq_some_map
  intro i mem
  rw [goSlice, if_pos, Option.map_some]
  exact ⟨(sliceStart_le_sliceStop_iff _ i).mpr (starts i (mem_range.mp mem)), sliceStop_le _ i⟩

theorem runWorkers_returns
    (starts : ∀ i, i < workerCount list.length cpus →
      i * txUnit list.length (workerCount list.length cpus) ≤ list.length) :
    runWorkers first cpus work list ≠ none := by
  unfold runWorkers
  dsimp only
  rw [runWorkers_slices starts]
  dsimp only
  split <;> exact Option.some_ne_none _

variable {entries : List β}

theorem writeSlices {unit : Nat} (k : Nat) (starts : ∀ i, i < k → i * unit ≤ entries.length) :
    (range k).foldl (fun array i => writeFrom (sliceStart unit i)
          ((entries.take (sliceStop entries.length unit i)).drop (sliceStart unit i)) array)
        (replicate entries.length none) =
      (entries.take (k * unit)).map some ++ replicate (entries.length - k * unit) none := by
  induction k with
  | zero => simp
  | succ k ih =>
    have start := starts k (Nat.lt_succ_self k)
    have next : (k + 1) * unit = k * unit + unit := Nat.succ_mul k unit
    have front : ((entries.take (k * unit)).map some).length = k * unit := by
      rw [length_map, length_take]
      omega
    rw [range_succ, foldl_append, ih fun i below => starts i (by omega)]
    simp only [foldl_cons, foldl_nil, sliceStart]
    have placed := writeFrom_replicate
      ((entries.take (sliceStop entries.length unit k)).drop (k * unit))
      ((entries.take (k * unit)).map some) (entries.length - k * unit) (by
        rw [length_drop, length_take]
        omega)
    rw [front] at placed
    have whole : entries.take (sliceStop entries.length unit k) = entries.take ((k + 1) * unit) := by
      unfold sliceStop
      split
      · rw [take_length, take_of_length_le (by omega)]
      · rfl
    have joined : entries.take (k * unit) ++ (entries.take ((k + 1) * unit)).drop (k * unit) =
        entries.take ((k + 1) * unit) := by
      have inner : (entries.take ((k + 1) * unit)).take (k * unit) = entries.take (k * unit) := by
        rw [take_take, Nat.min_eq_left (by omega)]
      rw [← inner, take_append_drop]
    have rest : entries.length - k * unit -
        ((entries.take ((k + 1) * unit)).drop (k * unit)).length =
          entries.length - (k + 1) * unit := by
      rw [length_drop, length_take]
      omega
    rw [placed, whole, rest, ← map_append, joined]

theorem runWorkers_ok (cpu : 0 < cpus)
    (starts : ∀ i, i < workerCount list.length cpus →
      i * txUnit list.length (workerCount list.length cpus) ≤ list.length)
    (computed : list.mapM work = .ok entries) :
    runWorkers first cpus work list = some (.ok (entries.map some)) := by
  have related := mapM_eq_ok.mp computed
  have length : list.length = entries.length := related.length_eq
  have slices : ∀ start stop, ((list.take stop).drop start).mapM work =
      .ok ((entries.take stop).drop start) := by
    intro start stop
    exact mapM_eq_ok.mpr (forall₂_drop start (forall₂_take stop related))
  have covers : list.length ≤ _ := txUnit_covers (workerCount_pos (n := list.length) cpu)
  unfold runWorkers
  dsimp only
  rw [runWorkers_slices starts]
  simp only [slices]
  rw [filterMap_eq_nil_iff.mpr (by simp)]
  rw [length] at starts covers ⊢
  rw [foldl_map, writeSlices _ starts, take_of_length_le covers, Nat.sub_eq_zero_of_le covers]
  simp

end Run

section Chain

variable {Acc Ev Tx : Type} [HashFunction] [Msgpack] [Transaction Acc Ev Tx]

/-- The workers of `validateTransactionSignatures` on the transactions of a block. -/
def Chain.entriesOn (cn : Chain Acc Ev Tx) (first : List Err → Err) (cpus : Nat) (chainID : UInt8)
    (sp : Option SignerProvider) (txs : List (UInt16 × Tx × List Signature)) :
    Option (Except Err (List (Option (TxEntry Tx)))) :=
  runWorkers first cpus (cn.entryOf chainID sp) txs

/-- The slices partition the transactions, nothing panics, and every transaction gets its
signers, exactly when the start of the last slice is not behind the last transaction. -/
theorem Chain.entries_partition_iff (cn : Chain Acc Ev Tx) (first : List Err → Err) (cpus : Nat)
    (chainID : UInt8) (sp : Option SignerProvider) (txs : List (UInt16 × Tx × List Signature))
    (some : 0 < txs.length) (cpu : 0 < cpus) :
    (Partitions txs.length cpus ∧ cn.entriesOn first cpus chainID sp txs ≠ none ∧
      ∀ entries, txs.mapM (cn.entryOf chainID sp) = .ok entries →
        cn.entriesOn first cpus chainID sp txs = Option.some (.ok (entries.map Option.some))) ↔
    txs.length < 1000 ∨ (cpus - 1) * txUnit txs.length cpus ≤ txs.length := by
  have last : (workerCount txs.length cpus - 1) * txUnit txs.length (workerCount txs.length cpus) ≤
      txs.length ↔ txs.length < 1000 ∨ (cpus - 1) * txUnit txs.length cpus ≤ txs.length := by
    unfold workerCount
    split
    · rename_i small
      simp [small]
    · rename_i large
      simp [large]
  rw [partitions_iff some cpu, last]
  constructor
  · exact fun split => split.1
  · intro inRange
    have starts := (starts_in_range_iff (workerCount_pos cpu)).mpr (last.mpr inRange)
    exact ⟨inRange, runWorkers_returns starts, fun entries => runWorkers_ok cpu starts⟩

end Chain

namespace Instances

def thousand : List (UInt16 × SetData × List Signature) :=
  replicate 1000 (idleType, ⟨0, [], [1]⟩, [])

/-- Eight processors get a hundred and twenty five transactions each. -/
theorem thousand_on_eight : Partitions 1000 8 ∧
    idleChain.entriesOn (fun _ => .panicked) 8 0 none thousand ≠ none ∧
      ∀ entries, thousand.mapM (idleChain.entryOf 0 none) = .ok entries →
        idleChain.entriesOn (fun _ => .panicked) 8 0 none thousand =
          some (.ok (entries.map some)) := by
  have length : thousand.length = 1000 := length_replicate
  have split := (Chain.entries_partition_iff idleChain (fun _ => .panicked) 8 0 none thousand
    (by rw [length]; decide) (by decide)).mpr (by rw [length]; decide)
  rwa [length] at split

/-- On sixty four processors a slice has sixteen transactions, and the last one would start
at the transaction 1008. -/
theorem thousand_on_sixty_four :
    ¬Partitions 1000 64 ∧ idleChain.entriesOn (fun _ => .panicked) 64 0 none thousand = none := by
  have length : thousand.length = 1000 := length_replicate
  constructor
  · rw [partitions_iff (by decide) (by decide)]
    decide
  · apply runWorkers_panics (i := 63)
    · rw [length]
      decide
    · rw [length]
      decide

end Instances

end Fleta
