import Fleta.PileContent

/-!
# Reading a record back

`Located height e offset p` says that the record of a height is that of the entry `e` and
lies at the offset. The readers then return the hash, and the data items as long as the
table of lengths is read whole, which takes fewer than 64 items, and no length is cut off
by its four bytes. From 64 items on the last item is never returned, and an item whose
compressed form is `2 ^ 32` bytes or longer is not returned either.
-/

namespace Fleta

open ByteOrder Gzip List

namespace Pile

def lengths (zdatas : List Bytes) : Bytes :=
  (zdatas.map fun zd => littleEndian 4 zd.length).flatten

@[simp] theorem lengths_cons (zd : Bytes) (zdatas : List Bytes) :
    lengths (zd :: zdatas) = littleEndian 4 zd.length ++ lengths zdatas := rfl

@[simp] theorem length_lengths (zdatas : List Bytes) :
    (lengths zdatas).length = 4 * zdatas.length := by
  induction zdatas with
  | nil => rfl
  | cons zd zdatas ih =>
    rw [lengths_cons, length_append, length_littleEndian, ih, length_cons]
    omega

theorem uint32At_append (front back : Bytes) (pos : Nat) :
    uint32At (front.length + pos) (front ++ back) = uint32At pos back := by
  unfold uint32At
  rw [length_append, drop_length_add_append]
  by_cases inside : pos + 4 ≤ back.length
  · rw [if_pos inside, if_pos (by omega)]
  · rw [if_neg inside, if_neg (by omega)]

theorem uint32At_littleEndian (value : Nat) (back : Bytes) :
    uint32At 0 (littleEndian 4 value ++ back) = .ok (UInt32.ofNat value) := by
  rw [uint32At, if_pos (by simp), drop_zero, take_left' (length_littleEndian 4 value),
    from_little_endian_little_endian]
  congr 1
  apply UInt32.toNat_inj.mp
  simp

variable {zdatas : List Bytes} {zd : Bytes} {j : Nat}

theorem uint32At_lengths (at_j : zdatas[j]? = some zd) :
    uint32At (4 * j) (lengths zdatas) = .ok (UInt32.ofNat zd.length) := by
  induction zdatas generalizing j with
  | nil => cases at_j
  | cons first zdatas ih =>
    cases j with
    | zero =>
      cases at_j
      exact uint32At_littleEndian _ _
    | succ j =>
      have shifted := uint32At_append (littleEndian 4 first.length) (lengths zdatas) (4 * j)
      rw [length_littleEndian, Nat.add_comm] at shifted
      rw [lengths_cons, Nat.mul_succ, shifted]
      exact ih at_j

def Short (zdatas : List Bytes) : Prop := ∀ zd ∈ zdatas, zd.length < 2 ^ 32

instance (zdatas : List Bytes) : Decidable (Short zdatas) :=
  inferInstanceAs (Decidable (∀ zd ∈ zdatas, zd.length < 2 ^ 32))

theorem toNat_ofNat_length (short : zd.length < 2 ^ 32) :
    (UInt32.ofNat zd.length).toNat = zd.length := by
  rw [UInt32.toNat_ofNat']
  exact Nat.mod_eq_of_lt short

theorem flatten_take_succ (at_j : zdatas[j]? = some zd) :
    (zdatas.take (j + 1)).flatten = (zdatas.take j).flatten ++ zd := by
  rw [take_add_one, at_j, Option.toList_some, flatten_append, flatten_singleton]

theorem skipItems_lengths (below : j ≤ zdatas.length) (short : Short (zdatas.take j)) (zofs : Nat) :
    skipItems (lengths zdatas) j zofs = .ok (zofs + (zdatas.take j).flatten.length) := by
  induction j with
  | zero => rfl
  | succ j ih =>
    have at_j : zdatas[j]? = some zdatas[j] := getElem?_eq_getElem below
    have before : Short (zdatas.take j) := by
      intro zd mem
      apply short
      exact (take_subset_take_left zdatas (Nat.le_succ j)) mem
    have last : zdatas[j].length < 2 ^ 32 := by
      apply short
      rw [take_add_one, at_j]
      exact mem_append_right _ mem_cons_self
    simp only [skipItems, ih (by omega) before, uint32At_lengths at_j, bind, Except.bind, pure,
      Except.pure, toNat_ofNat_length last]
    rw [flatten_take_succ at_j, length_append, Nat.add_assoc]

variable [Gzip]

structure Located (height : UInt32) (e : Entry) (offset : Nat) (p : Pile) : Prop where
  inChunk : ¬height > p.beginHeight + chunkUnit
  stored : ¬height > p.headHeight
  found : p.recordOffset height = .ok offset
  inside : offset + totalLen e.datas ≤ p.file.size
  record : p.file.slice offset (totalLen e.datas) = (recordChunks e.dataHash e.datas).flatten
  hashSize : e.dataHash.length = 32
  count : e.datas.length < 256

namespace Located

variable {height : UInt32} {e : Entry} {offset : Nat} {p : Pile}

theorem parts (located : p.Located height e offset) :
    p.file.slice offset 32 = e.dataHash ∧
    p.file.slice (offset + 32) 1 = [UInt8.ofNat e.datas.length] ∧
    p.file.slice (offset + 32 + 1) (4 * e.datas.length) = lengths (e.datas.map compress) ∧
    p.file.slice (offset + 32 + 1 + 4 * e.datas.length)
      (e.datas.map compress).flatten.length = (e.datas.map compress).flatten := by
  have record := located.record
  have whole : (recordChunks e.dataHash e.datas).flatten = e.dataHash ++
      ([UInt8.ofNat e.datas.length] ++ (lengths (e.datas.map compress) ++
        (e.datas.map compress).flatten)) := by
    simp [recordChunks, lengths, copyInto, located.hashSize, take_of_length_le]
  have size : totalLen e.datas = 32 + (1 + (4 * e.datas.length +
      (e.datas.map compress).flatten.length)) := by
    rw [totalLen, length_flatten]
    omega
  rw [whole, size, File.slice_add, File.slice_add, File.slice_add] at record
  obtain ⟨hash, record⟩ := append_inj record (by simp [located.hashSize])
  obtain ⟨count, record⟩ := append_inj record (by simp)
  obtain ⟨table, items⟩ := append_inj record (by simp)
  exact ⟨hash, count, table, items⟩

theorem totalLen_eq (e : Entry) :
    totalLen e.datas = 32 + 1 + 4 * e.datas.length + (e.datas.map compress).flatten.length := by
  rw [totalLen, length_flatten]

section

variable (located : p.Located height e offset)

include located

theorem getHash_eq : p.getHash height = .ok e.dataHash := by
  have inside := located.inside
  rw [totalLen_eq] at inside
  simp only [getHash, if_neg located.inChunk, located.found, bind, Except.bind]
  rw [File.read_of_le (by omega), located.parts.1]

theorem itemCount_eq : p.itemCount height = .ok (offset, UInt8.ofNat e.datas.length) := by
  have inside := located.inside
  rw [totalLen_eq] at inside
  have lbs : p.file.read (offset + 32) 1 = .ok [UInt8.ofNat e.datas.length] := by
    rw [File.read_of_le (by omega), located.parts.2.1]
  simp [itemCount, located.inChunk, located.stored, located.found, lbs, bind, Except.bind, pure,
    Except.pure]

theorem toNat_count : (UInt8.ofNat e.datas.length).toNat = e.datas.length := by
  rw [UInt8.toNat_ofNat']
  exact Nat.mod_eq_of_lt located.count

theorem toNat_tableSize : (4 * UInt8.ofNat e.datas.length).toNat = 4 * e.datas.length % 256 := by
  rw [UInt8.toNat_mul, located.toNat_count]
  rfl

theorem read_table :
    p.file.read (offset + 32 + 1) (4 * UInt8.ofNat e.datas.length).toNat =
      .ok (p.file.slice (offset + 32 + 1) (4 * e.datas.length % 256)) := by
  have inside := located.inside
  rw [totalLen_eq] at inside
  rw [located.toNat_tableSize, File.read_of_le]
  omega

theorem slice_item {j : Nat} {zd : Bytes} (at_j : (e.datas.map compress)[j]? = some zd) :
    offset + 32 + 1 + 4 * e.datas.length + ((e.datas.map compress).take j).flatten.length +
        zd.length ≤ p.file.size ∧
      p.file.slice (offset + 32 + 1 + 4 * e.datas.length +
        ((e.datas.map compress).take j).flatten.length) zd.length = zd := by
  have items := located.parts.2.2.2
  have inside := located.inside
  rw [totalLen_eq] at inside
  generalize e.datas.map compress = zdatas at at_j items inside
  have split : zdatas.flatten =
      (zdatas.take j).flatten ++ (zd ++ (zdatas.drop (j + 1)).flatten) := by
    rw [← append_assoc, ← flatten_take_succ at_j, ← flatten_append, take_append_drop]
  rw [split] at items inside
  simp only [length_append] at inside
  exact ⟨by omega, File.slice_of_slice_append items⟩

/-- What is read of an item is cut off where its length is. -/
theorem readItem_eq {j : Nat} {zd : Bytes} (at_j : (e.datas.map compress)[j]? = some zd) :
    p.readItem (lengths (e.datas.map compress)) j (offset + 32 + 1 + 4 * e.datas.length +
        ((e.datas.map compress).take j).flatten.length) =
      (decompress (zd.take (zd.length % 2 ^ 32))).map fun data =>
        (data, offset + 32 + 1 + 4 * e.datas.length +
          ((e.datas.map compress).take j).flatten.length + zd.length % 2 ^ 32) := by
  have zsize : (UInt32.ofNat zd.length).toNat = zd.length % 2 ^ 32 := UInt32.toNat_ofNat'
  obtain ⟨inside, item⟩ := located.slice_item at_j
  generalize offset + 32 + 1 + 4 * e.datas.length +
    ((e.datas.map compress).take j).flatten.length = zofs at inside item ⊢
  have cut : p.file.slice zofs (zd.length % 2 ^ 32) = zd.take (zd.length % 2 ^ 32) := by
    have fits : 0 + zd.length % 2 ^ 32 ≤ zd.length := by omega
    have front := File.slice_slice zofs fits p.file
    rw [item, drop_zero, Nat.add_zero] at front
    exact front.symm
  rw [readItem, uint32At_lengths at_j, ok_bind, zsize, File.read_of_le (by omega), cut, ok_bind]
  cases decompress (zd.take (zd.length % 2 ^ 32)) with
  | error err => rfl
  | ok data => rfl

end

section Few

variable (located : p.Located height e offset) (few : e.datas.length < 64)

include located few

theorem toNat_tableSize_few : (4 * UInt8.ofNat e.datas.length).toNat = 4 * e.datas.length := by
  rw [located.toNat_tableSize]
  exact Nat.mod_eq_of_lt (by omega)

theorem read_table_few :
    p.file.read (offset + 32 + 1) (4 * UInt8.ofNat e.datas.length).toNat =
      .ok (lengths (e.datas.map compress)) := by
  rw [located.read_table, Nat.mod_eq_of_lt (by omega), located.parts.2.2.1]

variable {j : Nat}

theorem getData_eq {zd : Bytes} (at_j : (e.datas.map compress)[j]? = some zd)
    (short : Short ((e.datas.map compress).take j)) :
    p.getData height j = decompress (zd.take (zd.length % 2 ^ 32)) := by
  have below := (List.getElem?_eq_some_iff.mp at_j).1
  have known : j < e.datas.length := by simpa using below
  rw [getData, located.itemCount_eq, ok_bind]
  dsimp only
  rw [located.toNat_count, if_neg (by omega), located.read_table_few few, ok_bind,
    located.toNat_tableSize_few few, skipItems_lengths (Nat.le_of_lt below) short, ok_bind,
    located.readItem_eq at_j]
  cases decompress (zd.take (zd.length % 2 ^ 32)) with
  | error err => rfl
  | ok data => rfl

theorem getData_ok [LawfulGzip] (short : Short (e.datas.map compress))
    {data : Bytes} (at_j : e.datas[j]? = some data) : p.getData height j = .ok data := by
  have compressed : (e.datas.map compress)[j]? = some (compress data) := by
    rw [getElem?_map, at_j, Option.map_some]
  have fits := short _ (mem_of_getElem? compressed)
  rw [located.getData_eq few compressed (fun zd mem => short zd (mem_of_mem_take mem)),
    Nat.mod_eq_of_lt fits, take_length, LawfulGzip.decompress_compress]

theorem getData_long [LawfulGzip] {data : Bytes} (at_j : e.datas[j]? = some data)
    (short : Short ((e.datas.map compress).take j))
    (long : 2 ^ 32 ≤ (compress data).length) (other : Bytes) :
    p.getData height j ≠ .ok other := by
  have compressed : (e.datas.map compress)[j]? = some (compress data) := by
    rw [getElem?_map, at_j, Option.map_some]
  rw [located.getData_eq few compressed short]
  apply LawfulGzip.decompress_take
  omega

/-- By induction on the number of items that are known to be short. -/
theorem short_of_reads [LawfulGzip]
    (reads : ∀ (j : Nat) (data : Bytes), e.datas[j]? = some data → p.getData height j = .ok data) :
    Short (e.datas.map compress) := by
  have short : ∀ j, Short ((e.datas.map compress).take j) := by
    intro j
    induction j with
    | zero => exact fun zd mem => by cases mem
    | succ j ih =>
      rw [take_add_one, getElem?_map]
      intro zd mem
      rw [mem_append] at mem
      cases mem with
      | inl before => exact ih zd before
      | inr last =>
        cases at_j : e.datas[j]? with
        | none => simp [at_j] at last
        | some data =>
          rw [at_j, Option.map_some, Option.toList_some, mem_singleton] at last
          rw [last]
          apply Nat.lt_of_not_le
          intro long
          exact located.getData_long few at_j ih long data (reads j data at_j)
  have whole := short e.datas.length
  rwa [take_of_length_le (by simp)] at whole

variable {start count : Nat}

omit few in
theorem readItems_ok [LawfulGzip] (short : Short (e.datas.map compress))
    (below : start + count ≤ e.datas.length) :
    p.readItems (lengths (e.datas.map compress)) start count
      (offset + 32 + 1 + 4 * e.datas.length +
        ((e.datas.map compress).take start).flatten.length) =
      .ok ((e.datas.drop start).take count).flatten := by
  induction count generalizing start with
  | zero => rfl
  | succ count ih =>
    have at_start : e.datas[start]? = some e.datas[start] := getElem?_eq_getElem (by omega)
    have compressed : (e.datas.map compress)[start]? = some (compress e.datas[start]) := by
      rw [getElem?_map, at_start, Option.map_some]
    have fits := short _ (mem_of_getElem? compressed)
    have rest := @ih (start + 1) (by omega)
    rw [flatten_take_succ compressed, length_append, ← Nat.add_assoc] at rest
    rw [readItems, located.readItem_eq compressed, Nat.mod_eq_of_lt fits, take_length,
      LawfulGzip.decompress_compress]
    change (do let rest ← _; pure (e.datas[start] ++ rest) : Except Err Bytes) = _
    rw [rest, ok_bind, drop_eq_getElem_cons (by omega : start < e.datas.length),
      take_succ_cons, flatten_cons]
    rfl

theorem getDatas_ok [LawfulGzip] (short : Short (e.datas.map compress))
    (below : start + count ≤ e.datas.length) :
    p.getDatas height start count = .ok ((e.datas.drop start).take count).flatten := by
  have items := located.readItems_ok short below
  rw [getDatas, located.itemCount_eq, ok_bind]
  dsimp only
  rw [located.toNat_count, if_neg (by omega), located.read_table_few few, ok_bind,
    located.toNat_tableSize_few few,
    skipItems_lengths (by rw [length_map]; omega)
      (fun zd mem => short zd (mem_of_mem_take mem)), ok_bind]
  exact items

end Few

/-- From 64 items on the entry of the last item lies behind the table that is read. -/
theorem getData_last (located : p.Located height e offset) (many : 64 ≤ e.datas.length)
    (data : Bytes) : p.getData height (e.datas.length - 1) ≠ .ok data := by
  intro read
  rw [getData, located.itemCount_eq, ok_bind] at read
  dsimp only at read
  rw [located.toNat_count, if_neg (by omega), located.read_table, ok_bind] at read
  cases skipped : skipItems (p.file.slice (offset + 32 + 1) (4 * e.datas.length % 256))
      (e.datas.length - 1)
      (offset + 32 + 1 + (4 * UInt8.ofNat e.datas.length).toNat) with
  | error err =>
    rw [skipped] at read
    cases read
  | ok zofs =>
    have behind : ¬4 * (e.datas.length - 1) + 4 ≤ 4 * e.datas.length % 256 := by
      omega
    rw [skipped, ok_bind, readItem, uint32At, File.length_slice, if_neg behind] at read
    cases read

end Located

omit [Gzip] in
theorem toNat_add_of_fits {base : UInt32} {n : Nat} (fits : base.toNat + n < 2 ^ 32) :
    (base + UInt32.ofNat n).toNat = base.toNat + n := by
  rw [UInt32.toNat_add, UInt32.toNat_ofNat']
  omega

theorem Holds.located {gen : Hash256} {base : UInt32} {es : List Entry} {p : Pile} {i : Nat}
    {e : Entry} (holds : p.Holds gen base es) (at_i : es[i]? = some e)
    (fits : base.toNat + chunkUnit.toNat < 2 ^ 32) (hashSize : e.dataHash.length = 32)
    (count : e.datas.length < 256) :
    p.Located (base + UInt32.ofNat (i + 1)) e (endOf (es.take i)) := by
  have below := (List.getElem?_eq_some_iff.mp at_i).1
  have short := holds.stores.short
  have height : (base + UInt32.ofNat (i + 1)).toNat = base.toNat + (i + 1) :=
    toNat_add_of_fits (by omega)
  refine ⟨?_, ?_, ?_, ?_, holds.stores.records i e at_i, hashSize, count⟩
  · rw [gt_iff_lt, UInt32.lt_iff_toNat_lt, holds.beginHeight, height, UInt32.toNat_add]
    omega
  · rw [gt_iff_lt, UInt32.lt_iff_toNat_lt, holds.headHeight, height, toNat_add_of_fits (by omega)]
    omega
  · rw [recordOffset, holds.beginHeight, count_of_head (n := i + 1) (by omega) rfl,
      Nat.add_sub_cancel, holds.stores.seekRecordEnd_take (Nat.le_of_lt below)]
  · rw [← endOf_take_succ at_i]
    exact Nat.le_trans (endOf_take_le _ _) holds.stores.size

end Pile

end Fleta
