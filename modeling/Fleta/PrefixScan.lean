import Fleta.Database

/-!
# Iteration over the keys with a prefix

Both backends scan the keys from the prefix up to an end key, which is the prefix with its
last byte raised and the carry passed on. Behind a prefix that ends in bytes 255 the range
also has the end key without some of its zeros, and for a prefix of nothing but bytes 255
there is no end key: nothing is visited.
-/

namespace Fleta

open List

variable {State : Type}

namespace Backend

/-- The loop over the bytes of the end key, from the last one on. -/
def increment : Bytes → Bytes
  | [] => []
  | byte :: rest => if byte + 1 ≠ 0 then (byte + 1) :: rest else 0 :: increment rest

def endKey (front : Bytes) : Bytes := (increment front.reverse).reverse

def rangeScan (start stop : Bytes) (db : Database) : List (Bytes × Bytes) :=
  db.eachAll.filter fun entry => start ≤ entry.1 ∧ entry.1 < stop

/-- The calls of a function that may fail, and keeps what it has done in a state. -/
def visitAll (fn : Bytes → Bytes → State → Except Err Unit × State) :
    List (Bytes × Bytes) → State → Except Err Unit × State
  | [], s => (.ok (), s)
  | (key, value) :: rest, s =>
    match fn key value s with
    | (.error err, s) => (.error err, s)
    | (.ok _, s) => visitAll fn rest s

end Backend

open Backend

/-- `Iterate` of the leveldb driver. -/
def LevelDB.iterate (front : Bytes) (fn : Bytes → Bytes → State → Except Err Unit × State)
    (s : State) (db : Database) : Except Err Unit × State :=
  if front ≠ [] then
    if endKey front < front then (.ok (), s) else visitAll fn (rangeScan front (endKey front) db) s
  else visitAll fn db.eachAll s

namespace BuntDB

/-- `AscendRange` and `Ascend` call the function until it returns false. -/
def ascend {Local : Type} (visit : Bytes × Bytes → Local → Bool × Local) :
    List (Bytes × Bytes) → Local → Local
  | [], s => s
  | entry :: rest, s =>
    match visit entry s with
    | (true, s) => ascend visit rest s
    | (false, s) => s

/-- The function that is handed to the scan, with the variable `inErr`. -/
def callback (fn : Bytes → Bytes → State → Except Err Unit × State) (entry : Bytes × Bytes)
    (s : Option Err × State) : Bool × (Option Err × State) :=
  match fn entry.1 entry.2 s.2 with
  | (.error err, s') => (false, (some err, s'))
  | (.ok _, s') => (true, (s.1, s'))

def finish (s : Option Err × State) : Except Err Unit × State :=
  match s with
  | (some err, s) => (.error err, s)
  | (none, s) => (.ok (), s)

/-- `Iterate` of the buntdb driver. -/
def iterate (front : Bytes) (fn : Bytes → Bytes → State → Except Err Unit × State) (s : State)
    (db : Database) : Except Err Unit × State :=
  if front ≠ [] then
    if endKey front < front then (.ok (), s)
    else finish (ascend (callback fn) (rangeScan front (endKey front) db) (none, s))
  else finish (ascend (callback fn) db.eachAll (none, s))

theorem finish_ascend (fn : Bytes → Bytes → State → Except Err Unit × State)
    (entries : List (Bytes × Bytes)) (s : State) :
    finish (ascend (callback fn) entries (none, s)) = visitAll fn entries s := by
  induction entries generalizing s with
  | nil => rfl
  | cons entry rest ih =>
    rcases called : fn entry.1 entry.2 s with ⟨result, s'⟩
    cases result with
    | error err => simp [ascend, callback, visitAll, called, finish]
    | ok => simpa [ascend, callback, visitAll, called] using ih s'

theorem iterate_eq (front : Bytes) (fn : Bytes → Bytes → State → Except Err Unit × State)
    (s : State) (db : Database) : iterate front fn s db = LevelDB.iterate front fn s db := by
  simp only [iterate, LevelDB.iterate, finish_ascend]

end BuntDB

namespace Backend

/-- The keys that a scan for the prefix visits although they do not start with it, and those
it does not visit although they do. -/
inductive Stray : Bytes → Bytes → Prop where
  | carried (front : Bytes) {byte : UInt8} {count zeros : Nat} : byte ≠ 255 → zeros < count →
      Stray (front ++ byte :: replicate count 255) (front ++ (byte + 1) :: replicate zeros 0)
  | unbounded {count : Nat} (rest : Bytes) : 0 < count →
      Stray (replicate count 255) (replicate count 255 ++ rest)

variable {byte : UInt8}

theorem toNat_raised (low : byte ≠ 255) : (byte + 1).toNat = byte.toNat + 1 := by
  have bound := byte.toNat_lt
  have other : byte.toNat ≠ 255 := fun same => low (UInt8.toNat_inj.mp same)
  rw [UInt8.toNat_add, UInt8.toNat_one]
  omega

theorem increment_carry (low : byte ≠ 255) (count : Nat) (rest : Bytes) :
    increment (replicate count 255 ++ byte :: rest) =
      replicate count 0 ++ (byte + 1) :: rest := by
  have raised : byte + 1 ≠ 0 := by
    intro zero
    exact absurd ((toNat_raised low).symm.trans (congrArg UInt8.toNat zero)) (Nat.succ_ne_zero _)
  induction count with
  | zero => simp [increment, raised]
  | succ count ih => simpa [replicate_succ, increment] using ih

variable (count : Nat)

theorem increment_replicate : increment (replicate count 255) = replicate count 0 := by
  induction count with
  | zero => rfl
  | succ count ih => simpa [replicate_succ, increment] using ih

variable (front : Bytes)

theorem endKey_carry (low : byte ≠ 255) (count : Nat) :
    endKey (front ++ byte :: replicate count 255) =
      front ++ (byte + 1) :: replicate count 0 := by
  simp [endKey, increment_carry low]

variable (key : Bytes)

theorem split_trailing :
    (∃ count, key = replicate count 255) ∨
      ∃ front byte count, byte ≠ 255 ∧ key = front ++ byte :: replicate count 255 := by
  induction key with
  | nil => exact .inl ⟨0, rfl⟩
  | cons byte rest ih =>
    rcases ih with ⟨count, rfl⟩ | ⟨front, last, count, low, rfl⟩
    · by_cases full : byte = 255
      · exact .inl ⟨count + 1, by rw [full, replicate_succ]⟩
      · exact .inr ⟨[], byte, count, full, rfl⟩
    · exact .inr ⟨byte :: front, last, count, low, rfl⟩

theorem replicate_le_iff : replicate count 255 ≤ key ↔ replicate count 255 <+: key := by
  induction count generalizing key with
  | zero => simp
  | succ count ih =>
    cases key with
    | nil => simp [replicate_succ]
    | cons byte rest =>
      have top : ¬(255 : UInt8) < byte := by
        have bound := byte.toNat_lt
        rw [UInt8.lt_iff_toNat_lt]
        exact Nat.not_lt.mpr (Nat.le_of_lt_succ bound)
      simp [replicate_succ, cons_le_cons_iff, cons_prefix_cons, top, ih]

theorem lt_replicate_iff : key < replicate count 0 ↔ ∃ zeros < count, key = replicate zeros 0 := by
  induction count generalizing key with
  | zero => simp
  | succ count ih =>
    cases key with
    | nil =>
      refine iff_of_true ?_ ⟨0, Nat.succ_pos count, rfl⟩
      simp [replicate_succ]
    | cons byte rest =>
      have bottom : ¬byte < 0 := by simp
      rw [replicate_succ, cons_lt_cons_iff, ih]
      constructor
      · rintro (below | ⟨rfl, zeros, less, rfl⟩)
        · exact absurd below bottom
        · exact ⟨zeros + 1, Nat.succ_lt_succ less, rfl⟩
      · rintro ⟨zeros, less, same⟩
        cases zeros with
        | zero => cases same
        | succ zeros =>
          cases same
          exact .inr ⟨rfl, zeros, Nat.lt_of_succ_lt_succ less, rfl⟩

/-- The range has the keys with the prefix and the end key without some of its zeros. -/
theorem range_carry_iff (low : byte ≠ 255) (count : Nat) (key : Bytes) :
    front ++ byte :: replicate count 255 ≤ key ∧
        key < front ++ (byte + 1) :: replicate count 0 ↔
      front ++ byte :: replicate count 255 <+: key ∨
        ∃ zeros < count, key = front ++ (byte + 1) :: replicate zeros 0 := by
  induction front generalizing key with
  | nil =>
    cases key with
    | nil => simp
    | cons first rest =>
      have raised := toNat_raised low
      simp only [nil_append, cons_le_cons_iff, cons_lt_cons_iff,
        cons_prefix_cons, replicate_le_iff, lt_replicate_iff, cons.injEq,
        UInt8.lt_iff_toNat_lt, ← UInt8.toNat_inj, raised]
      grind
  | cons other front ih =>
    cases key with
    | nil => simp
    | cons first rest =>
      have step := ih rest
      simp only [cons_append, cons_le_cons_iff, cons_lt_cons_iff,
        cons_prefix_cons, cons.injEq, UInt8.lt_iff_toNat_lt, ← UInt8.toNat_inj] at step ⊢
      grind

/-- The keys that `Iterate` visits. -/
def inScan (front key : Bytes) : Bool :=
  front = [] ∨ ¬endKey front < front ∧ front ≤ key ∧ key < endKey front

theorem inScan_carry (low : byte ≠ 255) (count : Nat) (key : Bytes) :
    inScan (front ++ byte :: replicate count 255) key = true ↔
      front ++ byte :: replicate count 255 <+: key ∨
        ∃ zeros < count, key = front ++ (byte + 1) :: replicate zeros 0 := by
  have ordered : ¬front ++ (byte + 1) :: replicate count 0 <
      front ++ byte :: replicate count 255 := by
    induction front with
    | nil =>
      have raised := toNat_raised low
      simp only [nil_append, cons_lt_cons_iff, UInt8.lt_iff_toNat_lt, ← UInt8.toNat_inj]
      omega
    | cons other front ih => simpa [cons_lt_cons_iff] using ih
  simp [inScan, endKey_carry front low, ordered, range_carry_iff front low]

theorem inScan_full {count : Nat} (some : 0 < count) (key : Bytes) :
    inScan (replicate count 255) key = false := by
  obtain ⟨count, rfl⟩ := Nat.exists_eq_succ_of_ne_zero (Nat.pos_iff_ne_zero.mp some)
  have ended : endKey (replicate (count + 1) 255) = replicate (count + 1) 0 := by
    simp [endKey, increment_replicate]
  have below : endKey (replicate (count + 1) 255) < replicate (count + 1) 255 := by
    rw [ended, replicate_succ, replicate_succ, cons_lt_cons_iff]
    exact .inl (by decide)
  simp [inScan, below]

theorem inScan_iff (front key : Bytes) :
    inScan front key = front.isPrefixOf key ↔ ¬Stray front key := by
  rw [Bool.eq_iff_iff, isPrefixOf_iff_prefix]
  constructor
  · intro same stray
    cases stray with
    | carried front low less =>
      have begins := same.mp ((inScan_carry front low _ _).mpr (.inr ⟨_, less, rfl⟩))
      rw [prefix_append_right_inj, cons_prefix_cons] at begins
      have raised := toNat_raised low
      rw [← begins.1] at raised
      omega
    | unbounded rest some =>
      have visited := same.mpr (prefix_append _ rest)
      rw [inScan_full some] at visited
      cases visited
  · intro regular
    rcases split_trailing front with ⟨count, rfl⟩ | ⟨front, byte, count, low, rfl⟩
    · cases count with
      | zero => simp [inScan]
      | succ count =>
        rw [inScan_full (Nat.succ_pos count)]
        refine iff_of_false Bool.false_ne_true ?_
        rintro ⟨rest, rfl⟩
        exact regular (.unbounded rest (Nat.succ_pos count))
    · rw [inScan_carry front low, or_iff_left]
      rintro ⟨zeros, less, rfl⟩
      exact regular (.carried front low less)

def withPrefix (front : Bytes) (db : Database) : List (Bytes × Bytes) :=
  db.eachAll.filter fun entry => front.isPrefixOf entry.1

theorem iterate_eq (fn : Bytes → Bytes → State → Except Err Unit × State)
    (s : State) (db : Database) :
    LevelDB.iterate front fn s db =
      visitAll fn (db.eachAll.filter fun entry => inScan front entry.1) s := by
  unfold LevelDB.iterate inScan
  by_cases empty : front = []
  · simp [empty]
  · by_cases below : endKey front < front
    · simp [empty, below, visitAll]
    · simp [empty, below, rangeScan]

theorem visitAll_log (entries seen : List (Bytes × Bytes)) :
    visitAll (fun key value seen => (.ok (), seen ++ [(key, value)])) entries seen =
      (.ok (), seen ++ entries) := by
  induction entries generalizing seen with
  | nil => simp [visitAll]
  | cons entry rest ih => simp [visitAll, ih]

/-- Both drivers call the function on the keys with the prefix in their order, up to the first
call that fails. -/
def VisitsExactly (front : Bytes) (db : Database) : Prop :=
  ∀ (State : Type) (fn : Bytes → Bytes → State → Except Err Unit × State) (s : State),
    LevelDB.iterate front fn s db = visitAll fn (withPrefix front db) s ∧
      BuntDB.iterate front fn s db = visitAll fn (withPrefix front db) s

theorem visitsExactly_iff (front : Bytes) (db : Database) : VisitsExactly front db ↔
    ∀ key value, db.get key = some value → ¬Stray front key := by
  simp only [VisitsExactly, BuntDB.iterate_eq, and_self, iterate_eq, ← SortedMap.mem_eachAll]
  constructor
  · intro exact key value mem
    have log := exact _ (fun key value seen => (.ok (), seen ++ [(key, value)])) []
    simp only [visitAll_log, withPrefix, nil_append, Prod.mk.injEq, true_and] at log
    have same := iff_of_eq (congrArg (fun list => (key, value) ∈ list) log)
    rw [mem_filter, mem_filter, and_iff_right mem, and_iff_right mem] at same
    exact (inScan_iff front key).mp (Bool.eq_iff_iff.mpr same)
  · intro regular State fn s
    rw [withPrefix]
    congr 1
    apply filter_congr
    intro entry mem
    exact (inScan_iff front entry.1).mpr (regular entry.1 entry.2 mem)

/-- A scan for the prefix 1, 255 visits the key 2, and one for 255 misses the key 255. -/
theorem not_visitsExactly : ¬VisitsExactly [1, 255] (SortedMap.empty.put [2] []) ∧
    ¬VisitsExactly [255] (SortedMap.empty.put [255] []) := by
  constructor <;>
  · intro exact
    have calls := (exact Nat (fun _ _ calls => (.ok (), calls + 1)) 0).1
    exact absurd (congrArg Prod.snd calls) (by decide +kernel)

end Backend

end Fleta
