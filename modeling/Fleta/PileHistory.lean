import Fleta.PileDB

/-!
# The history of a pile database

What a run of appends leaves in the piles is read back as it was appended exactly when no
entry has 64 items or more, no compressed item has `2 ^ 32` bytes or more, and no height
lies in the last chunk, whose last height does not fit into a word. Closing and opening
the database is invisible exactly when the number of entries is no multiple of the chunk
unit.
-/

namespace Fleta

open ByteOrder Pile List UInt32

namespace DB

variable [Gzip]

structure Answers (es : List Entry) (db : DB) : Prop where
  hash : ∀ i e, es[i]? = some e → db.getHash (ofNat (i + 1)) = .ok e.dataHash
  data : ∀ (i : Nat) (e : Entry) (j : Nat) (data : Bytes), es[i]? = some e →
    e.datas[j]? = some data → db.getData (ofNat (i + 1)) j = .ok data
  datas : ∀ (i : Nat) (e : Entry) (start count : Nat), es[i]? = some e →
    start + count ≤ e.datas.length →
    db.getDatas (ofNat (i + 1)) start count = .ok ((e.datas.drop start).take count).flatten

structure SameAnswers (es : List Entry) (db db' : DB) : Prop where
  hash : ∀ i e, es[i]? = some e →
    db.getHash (ofNat (i + 1)) = db'.getHash (ofNat (i + 1))
  data : ∀ (i : Nat) (e : Entry) (j : Nat), es[i]? = some e → j < e.datas.length →
    db.getData (ofNat (i + 1)) j = db'.getData (ofNat (i + 1)) j
  datas : ∀ (i : Nat) (e : Entry) (start count : Nat), es[i]? = some e →
    start + count ≤ e.datas.length →
    db.getDatas (ofNat (i + 1)) start count = db'.getDatas (ofNat (i + 1)) start count

/-- The last chunk that ends below `2 ^ 32`. -/
def readableCount : Nat := 828 * chunkUnit.toNat

/-- The entries that can be read back. -/
structure Readable (es : List Entry) : Prop where
  length : es.length ≤ readableCount
  few : ∀ e ∈ es, e.datas.length < 64
  short : ∀ e ∈ es, Pile.Short (e.datas.map Gzip.compress)

omit [Gzip] in
theorem readableCount_eq : readableCount = 4292352000 := rfl

section Located

variable {gen : Hash256} {es : List Entry} {db : DB} {i : Nat} {e : Entry}

section

omit [Gzip]

theorem getElem?_chunk (es : List Entry) (i : Nat) :
    (chunk (i / chunkUnit.toNat) es)[i % chunkUnit.toNat]? = es[i]? := by
  have positive : 0 < chunkUnit.toNat := by decide
  rw [chunk, getElem?_take_of_lt (Nat.mod_lt _ positive), getElem?_drop,
    Nat.mul_comm, Nat.div_add_mod]

theorem height_eq (i : Nat) :
    ofNat (i + 1) = ofNat (i / chunkUnit.toNat * chunkUnit.toNat) +
      ofNat (i % chunkUnit.toNat + 1) := by
  rw [← ofNat_add, ← Nat.add_assoc, Nat.mul_comm, Nat.div_add_mod]

theorem pileIndex_eq (low : i + 1 < 2 ^ 32) :
    ((UInt32.ofNat (i + 1) - 1) / chunkUnit).toNat = i / chunkUnit.toNat := by
  have before : ofNat (i + 1) - 1 = ofNat i := by
    rw [ofNat_add]
    exact UInt32.add_sub_cancel _ _
  rw [before, UInt32.toNat_div, UInt32.toNat_ofNat', Nat.mod_eq_of_lt (by omega)]

theorem height_ne_zero (low : i + 1 < 2 ^ 32) : ofNat (i + 1) ≠ 0 := by
  intro zero
  have value := congrArg toNat zero
  rw [toNat_ofNat', Nat.mod_eq_of_lt low] at value
  exact absurd value (Nat.succ_ne_zero i)

end

theorem Represents.pileOf (rep : db.Represents gen es) (at_i : es[i]? = some e)
    (low : i + 1 < 2 ^ 32) :
    ∃ p, db.pileOf (ofNat (i + 1)) = .ok p ∧
      p.Holds gen (ofNat (i / chunkUnit.toNat * chunkUnit.toNat))
        (chunk (i / chunkUnit.toNat) es) := by
  have below := (List.getElem?_eq_some_iff.mp at_i).1
  have known : i / chunkUnit.toNat < db.piles.length := by
    rw [rep.count, pileCount]
    exact Nat.lt_succ_of_le (Nat.div_le_div_right (by omega))
  have found := List.getElem?_eq_getElem known
  refine ⟨db.piles[i / chunkUnit.toNat], ?_, rep.piles _ _ found⟩
  rw [DB.pileOf, pileIndex_eq low, found]

theorem Represents.located (rep : db.Represents gen es) (at_i : es[i]? = some e)
    (low : i < readableCount) (hashSize : e.dataHash.length = 32) :
    ∃ p offset, db.pileOf (ofNat (i + 1)) = .ok p ∧
      p.Located (ofNat (i + 1)) e offset := by
  rw [readableCount_eq] at low
  obtain ⟨p, found, holds⟩ := rep.pileOf at_i (by omega)
  have here : (chunk (i / chunkUnit.toNat) es)[i % chunkUnit.toNat]? = some e := by
    rw [getElem?_chunk, at_i]
  refine ⟨p, endOf ((chunk (i / chunkUnit.toNat) es).take (i % chunkUnit.toNat)), found, ?_⟩
  rw [height_eq i]
  apply holds.located here _ hashSize (rep.items e (mem_of_getElem? at_i))
  rw [toNat_ofNat', chunkUnit_toNat, Nat.mod_eq_of_lt (by omega)]
  omega

variable {height : UInt32}

omit [Gzip] in
theorem toNat_pileIndex (positive : 0 < height.toNat) :
    ((height - 1) / chunkUnit).toNat = (height.toNat - 1) / chunkUnit.toNat := by
  rw [UInt32.toNat_div, UInt32.toNat_sub_of_le]
  · rfl
  · rw [UInt32.le_iff_toNat_le]
    exact positive

variable (rep : db.Represents gen es)

include rep

theorem Represents.pileOf_beyond {p : Pile}
    (above : es.length < height.toNat) (found : db.pileOf height = .ok p) :
    db.Last es ((height.toNat - 1) / chunkUnit.toNat) p := by
  obtain ⟨K, q, last⟩ := rep.last
  unfold DB.pileOf at found
  rw [toNat_pileIndex (by omega)] at found
  cases at_k : db.piles[(height.toNat - 1) / chunkUnit.toNat]? with
  | none =>
    rw [at_k] at found
    cases found
  | some other =>
    rw [at_k] at found
    cases found
    have known := (List.getElem?_eq_some_iff.mp at_k).1
    have count := last.count
    have start := last.start
    have late : K ≤ (height.toNat - 1) / chunkUnit.toNat := by
      rw [Nat.le_div_iff_mul_le (by decide)]
      omega
    have here : (height.toNat - 1) / chunkUnit.toNat = K := by omega
    rw [here, last.at_k] at at_k
    rwa [here, ← Option.some.inj at_k]

end Located

variable {gen : Hash256} {es : List Entry} {db : DB} {height : UInt32} {p : Pile}

omit [Gzip] in
theorem getHash_of_pile (some : height ≠ 0)
    (found : db.pileOf height = .ok p) : db.getHash height = p.getHash height := by
  rw [DB.getHash, if_neg some, found, ok_bind]

theorem getData_of_pile (some : height ≠ 0)
    (found : db.pileOf height = .ok p) (j : Nat) : db.getData height j = p.getData height j := by
  rw [DB.getData, if_neg some, found, ok_bind]

theorem getDatas_of_pile (some : height ≠ 0)
    (found : db.pileOf height = .ok p) (start count : Nat) :
    db.getDatas height start count = p.getDatas height start count := by
  rw [DB.getDatas, if_neg some, found, ok_bind]

section

variable (rep : db.Represents gen es)

include rep

theorem Represents.answers [LawfulGzip]
    (hashSize : ∀ e ∈ es, e.dataHash.length = 32) (readable : Readable es) : db.Answers es := by
  have located : ∀ i e, es[i]? = some e → ofNat (i + 1) ≠ 0 ∧ ∃ p offset,
      db.pileOf (ofNat (i + 1)) = .ok p ∧ p.Located (ofNat (i + 1)) e offset := by
    intro i e at_i
    have below := (List.getElem?_eq_some_iff.mp at_i).1
    have low := Nat.lt_of_lt_of_le below readable.length
    refine ⟨?_, rep.located at_i low (hashSize e (mem_of_getElem? at_i))⟩
    rw [readableCount_eq] at low
    exact height_ne_zero (by omega)
  refine ⟨?_, ?_, ?_⟩
  · intro i e at_i
    obtain ⟨some, p, offset, found, here⟩ := located i e at_i
    rw [getHash_of_pile some found, here.getHash_eq]
  · intro i e j data at_i at_j
    obtain ⟨some, p, offset, found, here⟩ := located i e at_i
    have mem := mem_of_getElem? at_i
    rw [getData_of_pile some found, here.getData_ok (readable.few e mem) (readable.short e mem) at_j]
  · intro i e start count at_i below
    obtain ⟨some, p, offset, found, here⟩ := located i e at_i
    have mem := mem_of_getElem? at_i
    rw [getDatas_of_pile some found,
      here.getDatas_ok (readable.few e mem) (readable.short e mem) below]

/-- The first height of the last chunk is above the chunk's last height, which wrapped. -/
theorem Represents.length_of_answers (answers : db.Answers es) : es.length ≤ readableCount := by
  apply Nat.le_of_not_lt
  intro beyond
  have at_i := getElem?_eq_getElem beyond
  have low : readableCount + 1 < 2 ^ 32 := by decide
  obtain ⟨p, found, holds⟩ := rep.pileOf at_i low
  have answer := answers.hash _ _ at_i
  have above : ofNat (readableCount + 1) > p.beginHeight + chunkUnit := by
    rw [holds.beginHeight]
    decide
  rw [getHash_of_pile (height_ne_zero low) found, Pile.getHash, if_pos above] at answer
  cases answer

theorem Represents.readable [LawfulGzip]
    (hashSize : ∀ e ∈ es, e.dataHash.length = 32) (answers : db.Answers es) : Readable es := by
  have length := rep.length_of_answers answers
  have located : ∀ e ∈ es, ∃ (height : UInt32) (p : Pile) (offset : Nat),
      p.Located height e offset ∧
        ∀ (j : Nat) (data : Bytes), e.datas[j]? = some data → p.getData height j = .ok data := by
    intro e mem
    obtain ⟨i, at_i⟩ := mem_iff_getElem?.mp mem
    have low := Nat.lt_of_lt_of_le (List.getElem?_eq_some_iff.mp at_i).1 length
    obtain ⟨p, offset, found, here⟩ := rep.located at_i low (hashSize e mem)
    rw [readableCount_eq] at low
    refine ⟨_, p, offset, here, fun j data at_j => ?_⟩
    rw [← getData_of_pile (height_ne_zero (by omega)) found]
    exact answers.data i e j data at_i at_j
  have few : ∀ e ∈ es, e.datas.length < 64 := by
    intro e mem
    obtain ⟨height, p, offset, here, reads⟩ := located e mem
    apply Nat.lt_of_not_le
    intro many
    exact here.getData_last many _ (reads _ _ (getElem?_eq_getElem (by omega)))
  refine ⟨length, few, ?_⟩
  intro e mem
  obtain ⟨height, p, offset, here, reads⟩ := located e mem
  exact here.short_of_reads (few e mem) reads

end

variable {es₁ es₂ : List Entry}

theorem Readable.left (readable : Readable (es₁ ++ es₂)) : Readable es₁ where
  length := by
    have both := readable.length
    rw [length_append] at both
    omega
  few e mem := readable.few e (mem_append_left _ mem)
  short e mem := readable.short e (mem_append_left _ mem)

theorem Answers.same {db₁ : DB} (before : db₁.Answers es₁)
    (after : db.Answers (es₁ ++ es₂)) : SameAnswers es₁ db₁ db := by
  have kept : ∀ (i : Nat) (e : Entry), es₁[i]? = some e → (es₁ ++ es₂)[i]? = some e := by
    intro i e at_i
    rw [List.getElem?_append_left (List.getElem?_eq_some_iff.mp at_i).1, at_i]
  refine ⟨?_, ?_, ?_⟩
  · intro i e at_i
    rw [before.hash i e at_i, after.hash i e (kept i e at_i)]
  · intro i e j at_i below
    have at_j := getElem?_eq_getElem below
    rw [before.data i e j _ at_i at_j, after.data i e j _ (kept i e at_i) at_j]
  · intro i e start count at_i below
    rw [before.datas i e start count at_i below, after.datas i e start count (kept i e at_i) below]

/-- What was appended is read back, and keeps being read back whatever is appended later,
exactly when all entries are readable. -/
theorem log_read_back_iff [LawfulGzip] {db₀ : DB} (size : gen.length = 32)
    (hashSize : ∀ e ∈ es, e.dataHash.length = 32) (start : empty.init gen = .ok db₀)
    (run : db₀.Appended es db) :
    (db.Answers es ∧ ∀ (es₁ es₂ : List Entry) (db₁ : DB), es = es₁ ++ es₂ →
        db₀.Appended es₁ db₁ → db₁.Appended es₂ db → SameAnswers es₁ db₁ db) ↔
      Readable es := by
  have rep := run.represents size (init_represents size start)
  constructor
  · exact fun both => rep.readable hashSize both.1
  · intro readable
    have after := rep.answers hashSize readable
    refine ⟨after, ?_⟩
    intro es₁ es₂ db₁ split first _
    subst split
    have rep₁ := first.represents size (init_represents size start)
    have before := rep₁.answers (fun e mem => hashSize e (mem_append_left _ mem)) readable.left
    exact before.same after

end DB

namespace Instances

def marked : Bytes → Bytes
  | [] => [0]
  | byte :: rest => 1 :: byte :: marked rest

def unmarked : Bytes → Except Err Bytes
  | [0] => .ok []
  | 1 :: byte :: rest => (unmarked rest).map (byte :: ·)
  | _ => .error .endOfFile

scoped instance : Gzip := ⟨marked, unmarked⟩

scoped instance : LawfulGzip where
  decompress_compress data := by
    induction data with
    | nil => rfl
    | cons byte rest ih =>
      have read : unmarked (marked rest) = .ok rest := ih
      change (unmarked (marked rest)).map (byte :: ·) = _
      rw [read]
      rfl
  decompress_take data count short := by
    change ∀ other, unmarked ((marked data).take count) ≠ .ok other
    change count < (marked data).length at short
    induction data generalizing count with
    | nil =>
      have none : count = 0 := Nat.lt_one_iff.mp short
      subst none
      exact fun other read => by cases read
    | cons byte rest ih =>
      match count with
      | 0 => exact fun other read => by cases read
      | 1 => exact fun other read => by cases read
      | count + 2 =>
        intro other read
        have cut : ∀ other, unmarked ((marked rest).take count) ≠ .ok other := by
          apply ih
          simp only [marked, length_cons] at short
          omega
        change (unmarked ((marked rest).take count)).map (byte :: ·) = _ at read
        cases inner : unmarked ((marked rest).take count) with
        | error err =>
          rw [inner] at read
          cases read
        | ok data => exact cut data inner

def manyItems : Entry := ⟨zeroHash, replicate 64 []⟩

def fewItems : Entry := ⟨zeroHash, [[1, 2], []]⟩

def logOf (e : Entry) : Except Err Unit × DB :=
  match DB.empty.init zeroHash with
  | .ok db => db.appendData 1 e.dataHash e.datas
  | .error err => (.error err, DB.empty)

theorem logOf_run {e : Entry} (done : (logOf e).1.isOk = true) :
    ∃ db₀, DB.empty.init zeroHash = .ok db₀ ∧ db₀.Appended [e] (logOf e).2 := by
  unfold logOf at *
  cases made : DB.empty.init zeroHash with
  | error err =>
    rw [made] at done
    cases done
  | ok db₀ =>
    rw [made] at done
    dsimp only at done ⊢
    refine ⟨db₀, rfl, .snoc 1 e .nil ?_⟩
    cases step : db₀.appendData 1 e.dataHash e.datas with
    | mk result db =>
      rw [step] at done
      cases result with
      | error err => cases done
      | ok => rfl

/-- The 64th item of an entry is not read back. -/
theorem last_item_not_read_back : ∃ db₀ db : DB, DB.empty.init zeroHash = .ok db₀ ∧
    db₀.Appended [manyItems] db ∧ manyItems.datas.length ≤ 255 ∧ ¬db.Answers [manyItems] := by
  obtain ⟨db₀, made, run⟩ := logOf_run (e := manyItems) (by decide +kernel)
  refine ⟨db₀, _, made, run, by decide, fun answers => ?_⟩
  have read := answers.data 0 manyItems 63 [] rfl (by decide)
  have failed : ((logOf manyItems).2.getData 1 63).isOk = false := by decide +kernel
  change (logOf manyItems).2.getData 1 63 = _ at read
  rw [read] at failed
  cases failed

theorem few_items_read_back : ∃ db₀ db : DB, DB.empty.init zeroHash = .ok db₀ ∧
    db₀.Appended [fewItems] db ∧ db.Answers [fewItems] := by
  obtain ⟨db₀, made, run⟩ := logOf_run (e := fewItems) (by decide +kernel)
  have readable : DB.Readable [fewItems] := by
    refine ⟨by decide, ?_, ?_⟩
    · intro e mem
      rw [mem_singleton.mp mem]
      decide
    · intro e mem zd item
      rw [mem_singleton.mp mem] at item
      simp only [fewItems, Gzip.compress, map_cons, map_nil, mem_cons,
        not_mem_nil, or_false] at item
      rcases item with rfl | rfl <;> decide
  refine ⟨db₀, _, made, run, ?_⟩
  exact ((DB.log_read_back_iff (by decide) (fun e mem => by
    rw [mem_singleton.mp mem]; decide) made run).mpr readable).1

end Instances

end Fleta
