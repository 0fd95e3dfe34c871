import Fleta.PileHistory

/-!
# Closing and opening a pile database

The files of a database that is closed load as the piles it had, in whatever order they are
walked over. `openDB` then asks for the piles up to the one of the greatest head height
plus one, so a database whose last pile is full, or which has no entry yet, is not opened
as it was.
-/

namespace Fleta

open ByteOrder Pile List UInt32

namespace DB

theorem maxHeight_eq {piles : List Pile} {height : UInt32}
    (below : ∀ p ∈ piles, p.headHeight ≤ height) (reached : ∃ p ∈ piles, p.headHeight = height) :
    maxHeight piles = height := by
  have general : ∀ (piles : List Pile) (low : UInt32), (∀ p ∈ piles, p.headHeight ≤ height) →
      low ≤ height → (low = height ∨ ∃ p ∈ piles, p.headHeight = height) →
      piles.foldl (fun height p => if height < p.headHeight then p.headHeight else height)
        low = height := by
    intro piles
    induction piles with
    | nil =>
      intro low _ _ reached
      cases reached with
      | inl same => exact same
      | inr found => obtain ⟨p, mem, _⟩ := found; cases mem
    | cons first rest ih =>
      intro low below less reached
      rw [foldl_cons]
      have here := below first mem_cons_self
      apply ih
      · exact fun p mem => below p (mem_cons_of_mem _ mem)
      · split
        · exact here
        · exact less
      · cases reached with
        | inl same =>
          have kept : ¬low < first.headHeight := by
            rw [same, UInt32.not_lt]
            exact here
          rw [if_neg kept]
          exact .inl same
        | inr found =>
          obtain ⟨p, mem, top⟩ := found
          cases mem with
          | head =>
            left
            split
            · exact top
            · rename_i kept
              rw [UInt32.not_lt, top] at kept
              exact UInt32.le_antisymm less kept
          | tail _ later => exact .inr ⟨p, later, top⟩
  apply general piles 0 below
  · rw [le_iff_toNat_le]
    exact Nat.zero_le _
  · exact .inr reached

variable [Gzip] {gen : Hash256} {es : List Entry} {db : DB} {order : List Pile}

section

variable (rep : db.Represents gen es)

include rep

theorem Represents.load {p : Pile} (mem : p ∈ db.piles) : loadPile p.file = .ok p := by
  obtain ⟨k, at_k⟩ := List.mem_iff_getElem?.mp mem
  have known := (List.getElem?_eq_some_iff.mp at_k).1
  have bound := rep.bound
  apply (rep.piles k p at_k).load
  apply UInt32.toNat_inj.mp
  rw [UInt32.toNat_mod, toNat_base (by omega), Nat.mul_mod_left]
  rfl

theorem Represents.loadAll (walk : order.Perm db.piles) :
    (order.map file).mapM loadPile = .ok order := by
  rw [mapM_eq_ok, forall₂_map_left_iff, forall₂_same]
  exact fun p mem => rep.load (walk.mem_iff.mp mem)

theorem Represents.beginHeight_inj {j k : Nat} {p : Pile}
    (at_j : db.piles[j]? = some p) (below : k ≤ 828)
    (same : p.beginHeight = ofNat (k * chunkUnit.toNat)) : j = k := by
  have known := (List.getElem?_eq_some_iff.mp at_j).1
  have bound := rep.bound
  rw [(rep.piles j p at_j).beginHeight] at same
  have value := congrArg toNat same
  rw [toNat_base (by omega), toNat_base below] at value
  exact Nat.eq_of_mul_eq_mul_right (by decide) value

theorem Represents.lookup_eq (walk : order.Perm db.piles) {k : Nat} (below : k ≤ 828) :
    lookup (ofNat k * chunkUnit) order = db.piles[k]? := by
  have base : ofNat k * chunkUnit = ofNat (k * chunkUnit.toNat) := by
    rw [UInt32.ofNat_mul, UInt32.ofNat_toNat]
  rw [base]
  cases found : lookup (ofNat (k * chunkUnit.toNat)) order with
  | some p =>
    have mem : p ∈ db.piles := by
      apply walk.mem_iff.mp
      exact mem_reverse.mp (mem_of_find?_eq_some found)
    have same := find?_some found
    rw [beq_iff_eq] at same
    obtain ⟨j, at_j⟩ := mem_iff_getElem?.mp mem
    rw [← rep.beginHeight_inj at_j below same, at_j]
  | none =>
    cases at_k : db.piles[k]? with
    | none => rfl
    | some p =>
      have mem : p ∈ order.reverse := mem_reverse.mpr (walk.mem_iff.mpr (mem_of_getElem? at_k))
      have other := find?_eq_none.mp found p mem
      rw [(rep.piles k p at_k).beginHeight, beq_self_eq_true] at other
      exact absurd rfl other

theorem Represents.head_full {k K : Nat} {p q : Pile}
    (last : db.Last es K q) (at_k : db.piles[k]? = some p) (before : k < K) :
    p.headHeight.toNat = (k + 1) * chunkUnit.toNat := by
  have start := last.start
  have bound := rep.bound
  have count := last.count
  have full : (chunk k es).length = chunkUnit.toNat := by
    have next : (k + 1) * chunkUnit.toNat ≤ K * chunkUnit.toNat := Nat.mul_le_mul_right _ before
    rw [length_chunk]
    rw [Nat.succ_mul] at next
    omega
  rw [(rep.piles k p at_k).headHeight, full, ← ofNat_add, ← Nat.succ_mul, toNat_base (by omega)]

variable (walk : order.Perm db.piles)

include walk

theorem Represents.maxHeight_low
    (low : es.length < 2 ^ 32) : maxHeight order = ofNat es.length := by
  obtain ⟨K, q, last⟩ := rep.last
  have value : (ofNat es.length).toNat = es.length := by
    rw [toNat_ofNat', Nat.mod_eq_of_lt low]
  apply maxHeight_eq
  · intro p mem
    obtain ⟨k, at_k⟩ := mem_iff_getElem?.mp (walk.mem_iff.mp mem)
    have known := (List.getElem?_eq_some_iff.mp at_k).1
    rw [last.count] at known
    rw [le_iff_toNat_le, value]
    by_cases before : k < K
    · rw [rep.head_full last at_k before]
      exact Nat.le_trans (Nat.mul_le_mul_right _ before) last.start
    · have here : k = K := by omega
      rw [here, last.at_k] at at_k
      cases at_k
      exact Nat.le_of_eq (by rw [last.head, value])
  · exact ⟨q, walk.mem_iff.mpr (mem_of_getElem? last.at_k), last.head⟩

theorem Represents.maxHeight_high (high : 2 ^ 32 ≤ es.length) :
    db.piles.length = 829 ∧ maxHeight order = UInt32.ofNat (828 * chunkUnit.toNat) := by
  obtain ⟨K, q, last⟩ := rep.last
  have bound := rep.bound
  have stop := last.stop
  have count := last.count
  have unit := chunkUnit_toNat
  have final : K = 828 := by
    rw [unit] at stop
    omega
  rw [final] at last stop count
  refine ⟨count, ?_⟩
  have value := toNat_base (k := 828) (Nat.le_refl _)
  have known : 827 < db.piles.length := by omega
  have at_827 := getElem?_eq_getElem known
  apply maxHeight_eq
  · intro p mem
    obtain ⟨k, at_k⟩ := mem_iff_getElem?.mp (walk.mem_iff.mp mem)
    have inside := (List.getElem?_eq_some_iff.mp at_k).1
    rw [UInt32.le_iff_toNat_le, value]
    by_cases before : k < 828
    · rw [rep.head_full last at_k before]
      exact Nat.mul_le_mul_right _ before
    · have here : k = 828 := by omega
      rw [here, last.at_k] at at_k
      cases at_k
      rw [last.head, UInt32.toNat_ofNat', unit]
      omega
  · refine ⟨_, walk.mem_iff.mpr (mem_of_getElem? at_827), ?_⟩
    apply UInt32.toNat_inj.mp
    rw [rep.head_full last at_827 (by omega), value]

variable (positive : 0 < maxHeight order)

include positive

theorem Represents.open_eq :
    openDB (order.map file) =
      ((range (maxHeight order / chunkUnit + 1).toNat).mapM (requirePile order)).map
        fun piles => ⟨piles, (piles.head?.map Pile.genHash).getD (replicate 32 0)⟩ := by
  rw [openDB, rep.loadAll walk, ok_bind]
  rw [if_pos positive]
  rfl

theorem Represents.open_ok
    (count : (maxHeight order / Pile.chunkUnit + 1).toNat = db.piles.length) :
    openDB (order.map Pile.file) = .ok db := by
  have bound := rep.bound
  have found : (range db.piles.length).mapM (requirePile order) = .ok db.piles := by
    rw [mapM_eq_ok, forall₂_iff_get]
    refine ⟨length_range, ?_⟩
    intro k left right
    simp only [get_eq_getElem, getElem_range]
    rw [requirePile, rep.lookup_eq walk (by omega), getElem?_eq_getElem right]
  obtain ⟨K, q, last⟩ := rep.last
  have first : 0 < db.piles.length := by
    rw [last.count]
    omega
  have at_0 := getElem?_eq_getElem first
  rw [rep.open_eq walk positive, count, found]
  simp only [Except.map, head?_eq_getElem?, at_0, Option.map_some, Option.getD_some]
  rw [(rep.piles 0 _ at_0).genHash, ← rep.genHash]

theorem Represents.open_missing (few : db.piles.length ≤ 828)
    (count : (maxHeight order / Pile.chunkUnit + 1).toNat = db.piles.length + 1) (db' : DB) :
    openDB (order.map Pile.file) ≠ .ok db' := by
  rw [rep.open_eq walk positive, count]
  cases found : (range (db.piles.length + 1)).mapM (requirePile order) with
  | error err => exact fun none => by cases none
  | ok piles =>
    rw [mapM_eq_ok] at found
    obtain ⟨p, _, last⟩ := forall₂_right found.flip db.piles.length (by simp)
    rw [requirePile, rep.lookup_eq walk few, getElem?_eq_none (Nat.le_refl _)] at last
    cases last

end

def AcceptsOnly (height : UInt32) (db : DB) : Prop :=
  ∀ (height' : UInt32) (e : Entry), e.datas.length ≤ 255 → db.Room e.datas →
    ((db.appendData height' e.dataHash e.datas).1 = .ok () ↔ height' = height)

theorem Represents.acceptsOnly (rep : db.Represents gen es) (size : gen.length = 32)
    (below : es.length < 829 * chunkUnit.toNat) :
    db.AcceptsOnly (ofNat (es.length + 1)) := by
  intro height e few room
  constructor
  · intro accepted
    exact (appendData_represents size rep (Prod.ext accepted rfl)).1
  · intro next
    obtain ⟨db', accepted⟩ := rep.appendData_accepts size below few room
    rw [next, accepted]

theorem Represents.bound_partly (rep : db.Represents gen es)
    (partly : es.length % chunkUnit.toNat ≠ 0) : es.length < 829 * chunkUnit.toNat := by
  have bound := rep.bound
  obtain ⟨K, p, last⟩ := rep.last
  have stop := last.stop
  have count := last.count
  have whole : (K + 1) * chunkUnit.toNat ≤ 829 * chunkUnit.toNat :=
    Nat.mul_le_mul_right _ (by omega)
  have other : es.length ≠ 829 * chunkUnit.toNat := by
    intro full
    rw [full, Nat.mul_mod_left] at partly
    exact partly rfl
  omega

/-- The database is opened as it was closed: it gives the same answers, and it accepts
exactly the next height. The files are walked over in any order. -/
def Reopens (es : List Entry) (db : DB) : Prop :=
  ∀ order : List Pile, order.Perm db.piles → ∃ db', openDB (order.map file) = .ok db' ∧
    db'.AcceptsOnly (ofNat (es.length + 1)) ∧
    (∀ height, db'.getHash height = db.getHash height) ∧
    (∀ height index, db'.getData height index = db.getData height index) ∧
    (∀ height start count, db'.getDatas height start count = db.getDatas height start count)

omit [Gzip] in
theorem pilesWanted {n : Nat} (low : n < 2 ^ 32) :
    (UInt32.ofNat n / chunkUnit + 1).toNat = n / chunkUnit.toNat + 1 := by
  rw [UInt32.toNat_add, UInt32.toNat_div, UInt32.toNat_ofNat', Nat.mod_eq_of_lt low,
    chunkUnit_toNat]
  apply Nat.mod_eq_of_lt
  change n / 5184000 + 1 < 2 ^ 32
  omega

theorem Represents.open_partly (rep : db.Represents gen es) (walk : order.Perm db.piles)
    (partly : es.length % chunkUnit.toNat ≠ 0) :
    openDB (order.map file) = .ok db := by
  by_cases low : es.length < 2 ^ 32
  · have top := rep.maxHeight_low walk low
    apply rep.open_ok walk
    · rw [top, lt_iff_toNat_lt, toNat_ofNat', Nat.mod_eq_of_lt low]
      apply Nat.pos_of_ne_zero
      intro zero
      rw [zero, Nat.zero_mod] at partly
      exact partly rfl
    · rw [top, pilesWanted low, rep.count, pileCount]
      rw [chunkUnit_toNat] at *
      omega
  · obtain ⟨count, top⟩ := rep.maxHeight_high walk (by omega)
    apply rep.open_ok walk
    · rw [top]
      decide
    · rw [top, count]
      decide

theorem Represents.not_reopens_full (rep : db.Represents gen es) (size : gen.length = 32)
    {m : Nat} (full : es.length = (m + 1) * chunkUnit.toNat) : ¬db.Reopens es := by
  have count : db.piles.length = m + 1 := by
    rw [rep.count, pileCount, full, chunkUnit_toNat]
    omega
  intro reopens
  obtain ⟨db', opened, accepts, -⟩ := reopens db.piles (.refl _)
  by_cases low : es.length < 2 ^ 32
  · have top := rep.maxHeight_low (.refl _) low
    rw [full, chunkUnit_toNat] at low
    apply rep.open_missing (.refl _) _ (by omega) _ db' opened
    · rw [top, full, lt_iff_toNat_lt, toNat_base (by omega), chunkUnit_toNat]
      exact Nat.mul_pos (Nat.succ_pos m) (by decide)
    · rw [top, pilesWanted (by rw [full, chunkUnit_toNat]; omega), full,
        Nat.mul_div_cancel _ (by decide), count]
  · obtain ⟨count', top⟩ := rep.maxHeight_high (.refl _) (by omega)
    have same := rep.open_ok (.refl _) (by rw [top]; decide) (by rw [top, count']; decide)
    rw [opened] at same
    cases same
    obtain ⟨K, p, last⟩ := rep.last
    have room : db.Room [] := by
      intro p' found
      rw [last.found] at found
      cases found
      have holds := rep.piles K p last.at_k
      have isFull : p.headHeight - p.beginHeight ≥ chunkUnit := by
        have index : K = m := by
          have counted := last.count
          omega
        rw [ge_iff_le, le_iff_toNat_le, holds.count, last.length, full, index, Nat.succ_mul]
        omega
      rw [if_pos isFull]
      simp only [totalLen, map_nil, sum_nil, length_nil]
      decide
    have accepted := (accepts _ ⟨[], []⟩ (Nat.zero_le _) room).mpr rfl
    have next := (appendData_represents (e := ⟨[], []⟩) size rep (Prod.ext accepted rfl)).2
    have beyond := next.bound
    rw [next.count, pileCount, length_append, full, chunkUnit_toNat] at beyond
    simp only [length_singleton] at beyond
    omega

theorem Represents.not_reopens_empty (rep : db.Represents gen []) : ¬db.Reopens [] := by
  have top := rep.maxHeight_low (.refl _) (by decide)
  intro reopens
  obtain ⟨db', opened, -, hash, -⟩ := reopens db.piles (.refl _)
  rw [openDB, rep.loadAll (.refl _), ok_bind] at opened
  rw [top, if_neg (by decide)] at opened
  cases opened
  have first : 0 < db.piles.length := by
    rw [rep.count]
    exact Nat.succ_pos _
  have before : db.getHash 0 = .ok db.piles[0].genHash := by
    rw [DB.getHash, if_pos rfl, head?_eq_getElem?, getElem?_eq_getElem first]
  have after := hash 0
  rw [before] at after
  cases after

/-- Closing and opening the database is invisible exactly when its last pile is neither
full nor the first one without an entry. -/
theorem reopen_transparent_iff {db₀ : DB} (size : gen.length = 32)
    (start : empty.init gen = .ok db₀) (run : db₀.Appended es db) :
    db.Reopens es ↔ es.length % chunkUnit.toNat ≠ 0 := by
  have rep := run.represents size (init_represents size start)
  rw [nil_append] at rep
  constructor
  · intro reopens full
    obtain ⟨m, multiple⟩ := Nat.dvd_of_mod_eq_zero full
    cases m with
    | zero =>
      have nothing : es = [] := eq_nil_of_length_eq_zero multiple
      subst nothing
      exact rep.not_reopens_empty reopens
    | succ m => exact rep.not_reopens_full size (by rw [multiple, Nat.mul_comm]) reopens
  · intro partly order walk
    refine ⟨db, rep.open_partly walk partly,
      rep.acceptsOnly size (rep.bound_partly partly), ?_, ?_, ?_⟩
    · exact fun _ => rfl
    · exact fun _ _ => rfl
    · exact fun _ _ _ => rfl

end DB

namespace Instances

/-- A database without entries is not opened as it was closed. -/
theorem empty_log_not_reopened : ∃ db₀ : DB, DB.empty.init zeroHash = .ok db₀ ∧
    db₀.Appended [] db₀ ∧ ¬db₀.Reopens [] := by
  obtain ⟨db₀, made, -⟩ := logOf_run (e := fewItems) (by decide +kernel)
  exact ⟨db₀, made, .nil, (DB.init_represents (by decide) made).not_reopens_empty⟩

theorem one_entry_reopened : ∃ db₀ db : DB, DB.empty.init zeroHash = .ok db₀ ∧
    db₀.Appended [fewItems] db ∧ db.Reopens [fewItems] := by
  obtain ⟨db₀, made, run⟩ := logOf_run (e := fewItems) (by decide +kernel)
  exact ⟨db₀, _, made, run, (DB.reopen_transparent_iff (by decide) made run).mpr (by decide)⟩

end Instances

end Fleta
