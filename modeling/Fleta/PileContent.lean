import Fleta.Pile

/-!
# What a pile file contains

`Stores es f` says that the table and the records of the file are those of the entries
`es`; it does not look at the metadata. `Holds` adds the metadata and the fields of the
open pile. Every write of `appendData` up to the table entry leaves `Stores es` as it is,
and from the table entry on the file also stores the new entry. Loading a file whose three
head heights can be repaired gives the pile that holds as many entries as the head says.
-/

namespace Fleta

open ByteOrder

structure Entry where
  dataHash : Hash256
  datas : List Bytes

variable (value : UInt32)

@[simp] theorem length_uint32ToBytes : (uint32ToBytes value).length = 4 := by
  simp [uint32ToBytes]

theorem ofNat_uint32ToBytes : UInt32.ofNat (fromLittleEndian (uint32ToBytes value)) = value := by
  rw [uint32ToBytes, from_little_endian_of_fits (Nat.lt_of_lt_of_eq value.toNat_lt (by rfl)),
    UInt32.ofNat_toNat]

theorem uint32At_slice {base pos len : Nat} (inside : pos + 4 ≤ len) (f : File) :
    uint32At pos (f.slice base len) =
      .ok (UInt32.ofNat (fromLittleEndian (f.slice (base + pos) 4))) := by
  rw [uint32At, if_pos (by rwa [File.length_slice]), File.slice_slice base inside]

namespace File

theorem read_of_le {pos len : Nat} {f : File} (inside : pos + len ≤ f.size) :
    f.read pos len = .ok (f.slice pos len) := by
  apply if_neg
  omega

variable {ws : List Write}

theorem tryWrites_ok {f f' : File} (done : f.tryWrites ws = (.ok (), f')) :
    f' = f.writeAll ws ∧ ∀ w ∈ ws, w.stop ≤ Pile.maxFileSize := by
  induction ws generalizing f with
  | nil =>
    cases done
    exact ⟨rfl, fun w mem => by cases mem⟩
  | cons w ws ih =>
    rw [tryWrites] at done
    split at done
    · cases done
    · obtain ⟨result, rest⟩ := ih done
      refine ⟨result, ?_⟩
      intro w' mem
      cases mem with
      | head => omega
      | tail _ later => exact rest w' later

theorem tryWrites_of_fit (fit : ∀ w ∈ ws, w.stop ≤ Pile.maxFileSize) (f : File) :
    f.tryWrites ws = (.ok (), f.writeAll ws) := by
  induction ws generalizing f with
  | nil => rfl
  | cons w ws ih =>
    have first := fit w List.mem_cons_self
    rw [tryWrites, if_neg (by omega)]
    exact ih (fun w mem => fit w (List.mem_cons_of_mem _ mem)) (f.write w)

end File

namespace Pile

theorem chunkUnit_toNat : chunkUnit.toNat = 5184000 := rfl

theorem chunkHeaderSize_eq : chunkHeaderSize = 41472256 := rfl

variable [Gzip]

theorem length_recordChunks (dataHash : Hash256) (datas : List Bytes) :
    (recordChunks dataHash datas).flatten.length = totalLen datas := by
  simp [recordChunks, totalLen, List.length_flatten, Function.comp_def, List.map_const']
  omega

def endOf (es : List Entry) : Nat :=
  chunkHeaderSize + (es.map fun e => totalLen e.datas).sum

@[simp] theorem endOf_nil : endOf [] = chunkHeaderSize := by
  simp [endOf]

variable (es : List Entry)

@[simp] theorem endOf_append (e : Entry) : endOf (es ++ [e]) = endOf es + totalLen e.datas := by
  simp [endOf, Nat.add_assoc]

theorem chunkHeaderSize_le_endOf : chunkHeaderSize ≤ endOf es :=
  Nat.le_add_right _ _

theorem endOf_take_succ {es : List Entry} {i : Nat} {e : Entry} (at_i : es[i]? = some e) :
    endOf (es.take (i + 1)) = endOf (es.take i) + totalLen e.datas := by
  rw [List.take_add_one, at_i, Option.toList_some, endOf_append]

theorem endOf_take_le (i : Nat) : endOf (es.take i) ≤ endOf es := by
  have split : es = es.take i ++ es.drop i := (List.take_append_drop i es).symm
  unfold endOf
  conv_rhs => rw [split]
  rw [List.map_append, List.sum_append]
  omega

end Pile

structure File.Stores [Gzip] (es : List Entry) (f : File) : Prop where
  short : es.length ≤ Pile.chunkUnit.toNat
  size : Pile.endOf es ≤ f.size
  limit : Pile.endOf es ≤ Pile.maxFileSize
  table : ∀ i, i < es.length →
    f.slice (Pile.chunkMetaSize + i * 8) 8 = littleEndian 8 (Pile.endOf (es.take (i + 1)))
  records : ∀ i e, es[i]? = some e →
    f.slice (Pile.endOf (es.take i)) (Pile.totalLen e.datas) =
      (Pile.recordChunks e.dataHash e.datas).flatten

namespace File.Stores

variable [Gzip] {es : List Entry} {f : File}

/-- The writes that may be made without touching what is stored. -/
def Spares (es : List Entry) (w : Write) : Prop :=
  w.Avoids Pile.chunkMetaSize (Pile.chunkMetaSize + es.length * 8) ∧
    w.Avoids Pile.chunkHeaderSize (Pile.endOf es)

theorem writeAll (stores : f.Stores es) {ws : List Write} (spared : ∀ w ∈ ws, Spares es w) :
    (f.writeAll ws).Stores es where
  short := stores.short
  size := Nat.le_trans stores.size (size_le_writeAll ws f)
  limit := stores.limit
  table i below := by
    rw [← stores.table i below]
    apply (sameOn_writeAll (fun w mem => (spared w mem).1) f).slice
    · exact Nat.le_add_right _ _
    · omega
  records i e at_i := by
    rw [← stores.records i e at_i]
    apply (sameOn_writeAll (fun w mem => (spared w mem).2) f).slice
    · exact Pile.chunkHeaderSize_le_endOf _
    · rw [← Pile.endOf_take_succ at_i]
      exact Pile.endOf_take_le _ _

theorem recordEnd_take (stores : f.Stores es) {i : Nat} (below : i ≤ es.length) :
    f.recordEnd i = .ok (Pile.endOf (es.take i)) := by
  cases i with
  | zero => rfl
  | succ i =>
    have table := stores.table i below
    have fits : Pile.endOf (es.take (i + 1)) < 256 ^ 8 := by
      have limit := stores.limit
      have before := Pile.endOf_take_le es (i + 1)
      unfold Pile.maxFileSize at limit
      omega
    have inside : Pile.chunkMetaSize + i * 8 + 8 ≤ f.size := by
      have size := stores.size
      have header := Pile.chunkHeaderSize_le_endOf es
      have short := stores.short
      rw [Pile.chunkHeaderSize_eq] at header
      rw [Pile.chunkUnit_toNat] at short
      unfold Pile.chunkMetaSize
      omega
    rw [recordEnd, if_neg (Nat.succ_ne_zero i), Nat.add_sub_cancel, read_of_le inside, table]
    exact congrArg Except.ok (from_little_endian_of_fits fits)

theorem seekRecordEnd_take (stores : f.Stores es) {i : Nat} (below : i ≤ es.length) :
    f.seekRecordEnd i = .ok (Pile.endOf (es.take i)) := by
  have limit : ¬Pile.maxFileSize < Pile.endOf (es.take i) := by
    have whole := stores.limit
    have before := Pile.endOf_take_le es i
    omega
  simp [seekRecordEnd, stores.recordEnd_take below, limit, bind, Except.bind, pure, Except.pure]

theorem spares_record {pos : Nat} (behind : Pile.endOf es ≤ pos)
    (short : es.length ≤ Pile.chunkUnit.toNat) (chunks : List Bytes) :
    ∀ w ∈ Write.consecutive pos chunks, Spares es w := by
  intro w mem
  have start := (Write.consecutive_within pos chunks w mem).1
  have header := Pile.chunkHeaderSize_le_endOf es
  rw [Pile.chunkHeaderSize_eq] at header
  rw [Pile.chunkUnit_toNat] at short
  refine ⟨.inr ?_, .inr (by omega)⟩
  unfold Pile.chunkMetaSize
  omega

theorem spares_entry (room : es.length < Pile.chunkUnit.toNat) (value : Nat) :
    Spares es ⟨Pile.chunkMetaSize + es.length * 8, littleEndian 8 value⟩ := by
  rw [Pile.chunkUnit_toNat] at room
  refine ⟨.inr (Nat.le_refl _), .inl ?_⟩
  rw [Pile.chunkHeaderSize_eq, Write.stop, length_littleEndian]
  unfold Pile.chunkMetaSize
  dsimp only
  omega

theorem spares_metadata {w : Write} (before : w.stop ≤ Pile.chunkMetaSize) : Spares es w := by
  refine ⟨.inl before, .inl ?_⟩
  rw [Pile.chunkHeaderSize_eq]
  unfold Pile.chunkMetaSize at before
  omega

theorem snoc (stores : f.Stores es) (room : es.length < Pile.chunkUnit.toNat) {e : Entry}
    (size : Pile.endOf (es ++ [e]) ≤ f.size) (limit : Pile.endOf (es ++ [e]) ≤ Pile.maxFileSize)
    (entry : f.slice (Pile.chunkMetaSize + es.length * 8) 8 =
      littleEndian 8 (Pile.endOf es + Pile.totalLen e.datas))
    (record : f.slice (Pile.endOf es) (Pile.totalLen e.datas) =
      (Pile.recordChunks e.dataHash e.datas).flatten) :
    f.Stores (es ++ [e]) where
  short := by
    rw [List.length_append, List.length_singleton]
    exact room
  size := size
  limit := limit
  table i below := by
    rw [List.length_append, List.length_singleton] at below
    by_cases old : i < es.length
    · rw [List.take_append_of_le_length old]
      exact stores.table i old
    · have last : i = es.length := by omega
      rw [last, List.take_of_length_le (by simp), Pile.endOf_append]
      exact entry
  records i e' at_i := by
    by_cases old : i < es.length
    · rw [List.getElem?_append_left old] at at_i
      rw [List.take_append_of_le_length (Nat.le_of_lt old)]
      exact stores.records i e' at_i
    · have last : i = es.length := by
        have below := (List.getElem?_eq_some_iff.mp at_i).1
        rw [List.length_append, List.length_singleton] at below
        omega
      rw [last, List.getElem?_concat_length] at at_i
      cases at_i
      rw [last, List.take_left]
      exact record

theorem push (stores : f.Stores es) (room : es.length < Pile.chunkUnit.toNat) (e : Entry)
    (limit : Pile.endOf (es ++ [e]) ≤ Pile.maxFileSize) :
    ((f.writeAll (Write.consecutive (Pile.endOf es) (Pile.recordChunks e.dataHash e.datas))).write
      ⟨Pile.chunkMetaSize + es.length * 8,
        littleEndian 8 (Pile.endOf es + Pile.totalLen e.datas)⟩).Stores (es ++ [e]) := by
  have written : (f.writeAll (Write.consecutive (Pile.endOf es)
      (Pile.recordChunks e.dataHash e.datas))).Stores es :=
    stores.writeAll (spares_record (Nat.le_refl _) stores.short _)
  have record := slice_writeAll_consecutive (Pile.endOf es)
    (Pile.recordChunks e.dataHash e.datas) f
  have some : (Pile.recordChunks e.dataHash e.datas).flatten ≠ [] := by simp [Pile.recordChunks]
  have reached := stop_le_size_consecutive some (Pile.endOf es) f
  rw [Pile.length_recordChunks] at record reached
  generalize f.writeAll (Write.consecutive (Pile.endOf es)
    (Pile.recordChunks e.dataHash e.datas)) = g at written record reached
  have spares := spares_entry room (Pile.endOf es + Pile.totalLen e.datas)
  have kept : (g.writeAll [⟨Pile.chunkMetaSize + es.length * 8,
      littleEndian 8 (Pile.endOf es + Pile.totalLen e.datas)⟩]).Stores es := by
    apply written.writeAll
    intro w mem
    rwa [List.mem_singleton.mp mem]
  apply kept.snoc room _ limit
  · exact (by simpa using slice_write ⟨Pile.chunkMetaSize + es.length * 8,
      littleEndian 8 (Pile.endOf es + Pile.totalLen e.datas)⟩ g)
  · rw [← record]
    apply (sameOn_write _ g : SameOn Pile.chunkHeaderSize
      (Pile.endOf es + Pile.totalLen e.datas) (g.write _) g).slice
    · exact Pile.chunkHeaderSize_le_endOf es
    · exact Nat.le_refl _
    · left
      rw [Pile.chunkHeaderSize_eq, Write.stop, length_littleEndian]
      rw [Pile.chunkUnit_toNat] at room
      unfold Pile.chunkMetaSize
      dsimp only
      omega
  · rw [Pile.endOf_append]
    exact Nat.le_trans reached (size_le_write _ g)

end File.Stores

structure File.Heads (head checkA checkB : UInt32) (f : File) : Prop where
  head : f.slice 0 4 = uint32ToBytes head
  checkA : f.slice 4 4 = uint32ToBytes checkA
  checkB : f.slice 8 4 = uint32ToBytes checkB

/-- The part of the metadata that never changes. -/
structure File.Labelled (gen : Hash256) (base : UInt32) (f : File) : Prop where
  beginHeight : f.slice 12 4 = uint32ToBytes base
  endHeight : f.slice 16 4 = uint32ToBytes (base + Pile.chunkUnit)
  genHash : f.slice 20 32 = gen

namespace File

theorem Labelled.writeAll {gen : Hash256} {base : UInt32} {f : File}
    (labelled : f.Labelled gen base) {ws : List Write}
    (spared : ∀ w ∈ ws, w.Avoids 12 52) : (f.writeAll ws).Labelled gen base := by
  have same := sameOn_writeAll spared f
  refine ⟨?_, ?_, ?_⟩
  · rw [same.slice (by omega) (by omega), labelled.beginHeight]
  · rw [same.slice (by omega) (by omega), labelled.endHeight]
  · rw [same.slice (by omega) (by omega), labelled.genHash]

theorem slice_write_uint32 (pos : Nat) (value : UInt32) (f : File) :
    (f.write ⟨pos, uint32ToBytes value⟩).slice pos 4 = uint32ToBytes value := by
  simpa using slice_write ⟨pos, uint32ToBytes value⟩ f

variable {pos pos' : Nat}

theorem slice_write_short {bytes : Bytes} (f : File) (short : bytes.length ≤ 4)
    (apart : pos + 4 ≤ pos' ∨ pos' + 4 ≤ pos) :
    (f.write ⟨pos, bytes⟩).slice pos' 4 = f.slice pos' 4 := by
  apply (sameOn_write _ f : SameOn pos' (pos' + 4) (f.write _) f).slice (Nat.le_refl _) (Nat.le_refl _)
  unfold Write.Avoids Write.stop
  dsimp only
  omega

theorem slice_write_elsewhere {value : UInt32} (f : File)
    (apart : pos + 4 ≤ pos' ∨ pos' + 4 ≤ pos) :
    (f.write ⟨pos, uint32ToBytes value⟩).slice pos' 4 = f.slice pos' 4 :=
  slice_write_short f (Nat.le_of_eq (length_uint32ToBytes value)) apart

end File

namespace Pile

theorem toNat_ofNat_of_short {n : Nat} (short : n ≤ chunkUnit.toNat) :
    (UInt32.ofNat n).toNat = n := by
  rw [chunkUnit_toNat] at short
  rw [UInt32.toNat_ofNat']
  omega

theorem count_of_head {head base : UInt32} {n : Nat} (short : n ≤ chunkUnit.toNat)
    (at_head : head = base + UInt32.ofNat n) : (head - base).toNat = n := by
  rw [at_head, UInt32.add_comm, UInt32.add_sub_cancel, toNat_ofNat_of_short short]

theorem newMeta_eq {gen : Hash256} (base : UInt32) (size : gen.length = 32) :
    ∃ zeros, newMeta gen base = uint32ToBytes base ++ (uint32ToBytes base ++ (uint32ToBytes base ++
      (uint32ToBytes base ++ (uint32ToBytes (base + chunkUnit) ++ (gen ++ zeros))))) := by
  refine ⟨List.replicate 204 0, ?_⟩
  simp [newMeta, copyInto, chunkMetaSize, size, List.take_of_length_le]

theorem slices_of_words {u v gen zeros : Bytes} {f : File} (word : u.length = 4)
    (word' : v.length = 4) (size : gen.length = 32)
    (whole : f.slice 0 (u ++ (u ++ (u ++ (u ++ (v ++ (gen ++ zeros)))))).length =
      u ++ (u ++ (u ++ (u ++ (v ++ (gen ++ zeros)))))) :
    (f.slice 0 4 = u ∧ f.slice 4 4 = u ∧ f.slice 8 4 = u) ∧
      f.slice 12 4 = u ∧ f.slice 16 4 = v ∧ f.slice 20 32 = gen := by
  have next : ∀ (pos : Nat) (front back : Bytes),
      f.slice pos (front ++ back).length = front ++ back →
      f.slice pos front.length = front ∧ f.slice (pos + front.length) back.length = back := by
    intro pos front back both
    rw [List.length_append, File.slice_add] at both
    exact List.append_inj both (File.length_slice _ _ _)
  obtain ⟨first, whole⟩ := next _ _ _ whole
  obtain ⟨second, whole⟩ := next _ _ _ whole
  obtain ⟨third, whole⟩ := next _ _ _ whole
  obtain ⟨fourth, whole⟩ := next _ _ _ whole
  obtain ⟨fifth, whole⟩ := next _ _ _ whole
  obtain ⟨sixth, -⟩ := next _ _ _ whole
  rw [word] at first second third fourth fifth sixth
  rw [word'] at fifth sixth
  rw [size] at sixth
  exact ⟨⟨first, second, third⟩, fourth, fifth, sixth⟩

theorem metadata_of_newMeta {gen : Hash256} {base : UInt32} {f : File} (size : gen.length = 32)
    (whole : f.slice 0 (newMeta gen base).length = newMeta gen base) :
    f.Heads base base base ∧ f.Labelled gen base := by
  obtain ⟨zeros, parts⟩ := newMeta_eq base size
  rw [parts] at whole
  obtain ⟨⟨head, checkA, checkB⟩, first, last, hash⟩ :=
    slices_of_words (length_uint32ToBytes _) (length_uint32ToBytes _) size whole
  exact ⟨⟨head, checkA, checkB⟩, first, last, hash⟩

def headWrites (head : UInt32) : List Write :=
  [⟨0, uint32ToBytes head⟩, ⟨4, uint32ToBytes head⟩, ⟨8, uint32ToBytes head⟩]

theorem heads_write (head : UInt32) (f : File) :
    (f.writeAll (headWrites head)).Heads head head head := by
  simp only [headWrites, File.writeAll_cons, File.writeAll_nil]
  refine ⟨?_, ?_, ?_⟩
  · rw [File.slice_write_elsewhere _ (by omega), File.slice_write_elsewhere _ (by omega),
      File.slice_write_uint32]
  · rw [File.slice_write_elsewhere _ (by omega), File.slice_write_uint32]
  · rw [File.slice_write_uint32]

variable [Gzip] {gen : Hash256} {base : UInt32} {es : List Entry}

structure Holds (gen : Hash256) (base : UInt32) (es : List Entry) (p : Pile) : Prop where
  genHash : p.genHash = gen
  beginHeight : p.beginHeight = base
  headHeight : p.headHeight = base + UInt32.ofNat es.length
  stores : p.file.Stores es
  heads : p.file.Heads p.headHeight p.headHeight p.headHeight
  labelled : p.file.Labelled gen base

variable {p : Pile}

theorem Holds.count (holds : p.Holds gen base es) :
    (p.headHeight - p.beginHeight).toNat = es.length := by
  rw [holds.beginHeight]
  exact count_of_head holds.stores.short holds.headHeight

theorem Holds.seekRecordEnd_eq (holds : p.Holds gen base es) :
    p.file.seekRecordEnd (p.headHeight - p.beginHeight).toNat = .ok (endOf es) := by
  rw [holds.count, holds.stores.seekRecordEnd_take (Nat.le_refl _), List.take_length]

variable {f : File}

theorem stores_nil (size : chunkHeaderSize ≤ f.size) : f.Stores [] where
  short := Nat.zero_le _
  size := by rwa [endOf_nil]
  limit := by
    rw [endOf_nil, chunkHeaderSize_eq]
    unfold maxFileSize
    omega
  table i below := absurd below (Nat.not_lt_zero i)
  records i e at_i := by cases at_i

omit [Gzip] in
theorem aligned_of_newPile (made : newPile gen base = .ok p) : base % chunkUnit = 0 := by
  apply Classical.byContradiction
  intro crooked
  rw [newPile, if_pos crooked] at made
  cases made

theorem newPile_holds (size : gen.length = 32) (aligned : base % chunkUnit = 0) :
    ∃ p, newPile gen base = .ok p ∧ p.Holds gen base [] := by
  have whole := File.slice_write ⟨0, newMeta gen base⟩ (File.empty.grow chunkHeaderSize)
  have grown := File.size_le_write ⟨0, newMeta gen base⟩ (File.empty.grow chunkHeaderSize)
  obtain ⟨heads, labelled⟩ := metadata_of_newMeta size whole
  refine ⟨_, if_neg (fun other => other aligned), rfl, rfl, ?_, stores_nil ?_, heads, labelled⟩
  · exact (UInt32.add_zero base).symm
  · exact Nat.le_trans (Nat.le_max_right _ _) grown

def recordWrites (es : List Entry) (e : Entry) : List Write :=
  Write.consecutive (endOf es) (recordChunks e.dataHash e.datas) ++
    [⟨chunkMetaSize + es.length * 8, littleEndian 8 (endOf es + totalLen e.datas)⟩]

theorem Holds.appendWrites_eq (holds : p.Holds gen base es) (e : Entry) :
    p.appendWrites (endOf es) e.dataHash e.datas =
      recordWrites es e ++ headWrites (p.headHeight + 1) := by
  simp [appendWrites, recordWrites, headWrites, holds.count]

variable {e : Entry}

theorem behind_recordWrites : ∀ w ∈ recordWrites es e, chunkMetaSize ≤ w.pos := by
  intro w mem
  rw [recordWrites, List.mem_append, List.mem_singleton] at mem
  cases mem with
  | inl data =>
    have start := (Write.consecutive_within _ _ w data).1
    have header := chunkHeaderSize_le_endOf es
    rw [chunkHeaderSize_eq] at header
    unfold chunkMetaSize
    omega
  | inr entry =>
    rw [entry]
    exact Nat.le_add_right _ _

theorem stores_recordWrites (stores : f.Stores es) (room : es.length < chunkUnit.toNat) (limit : endOf (es ++ [e]) ≤ maxFileSize) :
    (f.writeAll (recordWrites es e)).Stores (es ++ [e]) := by
  rw [recordWrites, File.writeAll_append]
  exact stores.push room e limit

variable {head : UInt32}

omit [Gzip] in
theorem before_headWrites : ∀ w ∈ headWrites head, w.stop ≤ 12 := by
  intro w mem
  simp only [headWrites, List.mem_cons, List.not_mem_nil, or_false] at mem
  unfold Write.stop
  rcases mem with rfl | rfl | rfl <;> simp

section

variable (holds : p.Holds gen base es)

include holds

theorem Holds.appended (room : es.length < chunkUnit.toNat)
    (written : f = p.file.writeAll (p.appendWrites (endOf es) e.dataHash e.datas))
    (fit : ∀ w ∈ p.appendWrites (endOf es) e.dataHash e.datas, w.stop ≤ maxFileSize) :
    Holds gen base (es ++ [e]) { p with file := f, headHeight := p.headHeight + 1 } := by
  rw [holds.appendWrites_eq, File.writeAll_append] at written
  have limit : endOf (es ++ [e]) ≤ maxFileSize := by
    rw [endOf_append, ← length_recordChunks e.dataHash]
    apply Write.stop_consecutive (by simp [recordChunks])
    intro w mem
    apply fit
    rw [holds.appendWrites_eq, recordWrites]
    simp [mem]
  have behind : ∀ w ∈ recordWrites es e, chunkMetaSize ≤ w.pos := behind_recordWrites
  unfold chunkMetaSize at behind
  have stored := stores_recordWrites holds.stores room limit
  have labelled : (p.file.writeAll (recordWrites es e)).Labelled gen base :=
    holds.labelled.writeAll fun w mem => .inr (by have := behind w mem; omega)
  generalize p.file.writeAll (recordWrites es e) = g at written stored labelled
  rw [written]
  refine ⟨holds.genHash, holds.beginHeight, ?_, ?_, heads_write _ g, ?_⟩
  · rw [List.length_append, List.length_singleton, UInt32.ofNat_add, ← UInt32.add_assoc,
      ← holds.headHeight]
    rfl
  · apply stored.writeAll
    intro w mem
    apply File.Stores.spares_metadata
    have before := before_headWrites w mem
    unfold chunkMetaSize
    omega
  · apply labelled.writeAll
    intro w mem
    exact .inl (before_headWrites w mem)

theorem Holds.appendData_ok {p' : Pile} {height : UInt32} (done : p.appendData height e.dataHash e.datas = (.ok (), p')) :
    height = p.headHeight + 1 ∧
      p' = { p with
        file := p.file.writeAll (p.appendWrites (endOf es) e.dataHash e.datas)
        headHeight := p.headHeight + 1 } ∧
      ∀ w ∈ p.appendWrites (endOf es) e.dataHash e.datas, w.stop ≤ maxFileSize := by
  unfold appendData at done
  rw [holds.seekRecordEnd_eq] at done
  split at done
  · cases done
  · rename_i next
    cases wrote : p.file.tryWrites (p.appendWrites (endOf es) e.dataHash e.datas) with
    | mk result f =>
      simp only [wrote] at done
      cases result with
      | error err => cases done
      | ok =>
        cases done
        obtain ⟨written, fit⟩ := File.tryWrites_ok wrote
        rw [written]
        exact ⟨Classical.not_not.mp next, rfl, fit⟩

variable (room : es.length < chunkUnit.toNat)

include room

theorem appendData_holds {p' : Pile} {height : UInt32}
    (done : p.appendData height e.dataHash e.datas = (.ok (), p')) :
    height = p.headHeight + 1 ∧ p'.Holds gen base (es ++ [e]) := by
  obtain ⟨next, result, fit⟩ := holds.appendData_ok done
  rw [result]
  exact ⟨next, holds.appended room rfl fit⟩

theorem Holds.writes_within {hi : Nat} (fits : endOf es + totalLen e.datas ≤ hi) :
    ∀ w ∈ p.appendWrites (endOf es) e.dataHash e.datas, w.stop ≤ hi := by
  have header := chunkHeaderSize_le_endOf es
  rw [chunkHeaderSize_eq] at header
  intro w mem
  rw [holds.appendWrites_eq, recordWrites, List.mem_append, List.mem_append,
    List.mem_singleton] at mem
  rcases mem with (data | entry) | head
  · have within := (Write.consecutive_within _ _ w data).2
    rw [length_recordChunks] at within
    omega
  · rw [entry, Write.stop, length_littleEndian]
    rw [chunkUnit_toNat] at room
    unfold chunkMetaSize
    dsimp only
    omega
  · have before := before_headWrites w head
    omega

theorem appendData_accepts (fits : endOf es + totalLen e.datas ≤ maxFileSize) :
    ∃ p', p.appendData (p.headHeight + 1) e.dataHash e.datas = (.ok (), p') := by
  rw [appendData, if_neg (not_not_intro rfl), holds.seekRecordEnd_eq]
  dsimp only
  rw [File.tryWrites_of_fit (holds.writes_within room fits)]
  exact ⟨_, rfl⟩

end

variable {checkA checkB head' : UInt32} {ws : List Write}

omit [Gzip] in
theorem repair_heads
    (heads : f.Heads head checkA checkB) (repaired : repair head checkA checkB = .ok (head', ws)) :
    (f.writeAll ws).Heads head' head' head' ∧ ∀ w ∈ ws, w.stop ≤ 12 := by
  unfold repair at repaired
  split at repaired
  · rename_i same
    cases repaired
    obtain ⟨rfl, rfl⟩ := same
    exact ⟨heads, fun w mem => by cases mem⟩
  · split at repaired
    · rename_i same
      cases repaired
      subst same
      refine ⟨⟨?_, ?_, ?_⟩, ?_⟩
      · exact File.slice_write_uint32 0 _ f
      · exact (File.slice_write_elsewhere f (by omega)).trans heads.checkA
      · exact (File.slice_write_elsewhere f (by omega)).trans heads.checkB
      · intro w mem
        rw [List.mem_singleton.mp mem, Write.stop, length_uint32ToBytes]
        exact (by decide : 0 + 4 ≤ 12)
    · split at repaired
      · cases repaired
        refine ⟨⟨?_, ?_, ?_⟩, ?_⟩
        · simp only [File.writeAll_cons, File.writeAll_nil]
          rw [File.slice_write_elsewhere _ (by omega), File.slice_write_elsewhere _ (by omega),
            heads.head]
        · simp only [File.writeAll_cons, File.writeAll_nil]
          rw [File.slice_write_elsewhere _ (by omega), File.slice_write_uint32]
        · exact File.slice_write_uint32 8 _ _
        · intro w mem
          simp only [List.mem_cons, List.not_mem_nil, or_false] at mem
          unfold Write.stop
          rcases mem with rfl | rfl <;> simp
      · split at repaired
        · rename_i same
          cases repaired
          subst same
          refine ⟨⟨?_, ?_, ?_⟩, ?_⟩
          · exact (File.slice_write_elsewhere f (by omega)).trans heads.head
          · exact (File.slice_write_elsewhere f (by omega)).trans heads.checkA
          · exact File.slice_write_uint32 8 _ f
          · intro w mem
            simp [List.mem_singleton.mp mem, Write.stop, length_uint32ToBytes]
        · cases repaired

theorem loadPile_holds
    (heads : f.Heads head checkA checkB) (labelled : f.Labelled gen base) (stores : f.Stores es)
    (aligned : base % chunkUnit = 0) (repaired : repair head checkA checkB = .ok (head', ws))
    (at_head : head' = base + UInt32.ofNat es.length) :
    loadPile f = .ok ⟨f.writeAll ws, head', base, gen⟩ ∧
      Holds gen base es ⟨f.writeAll ws, head', base, gen⟩ := by
  obtain ⟨heads', before⟩ := repair_heads heads repaired
  have stores' : (f.writeAll ws).Stores es := by
    apply stores.writeAll
    intro w mem
    apply File.Stores.spares_metadata
    exact Nat.le_trans (before w mem) (by decide)
  have labelled' : (f.writeAll ws).Labelled gen base :=
    labelled.writeAll (fun w mem => .inl (before w mem))
  have word : ∀ {pos : Nat} {value : UInt32}, pos + 4 ≤ chunkMetaSize →
      f.slice pos 4 = uint32ToBytes value →
      uint32At pos (f.slice 0 chunkMetaSize) = .ok value := by
    intro pos value inside found
    rw [uint32At_slice inside, Nat.zero_add, found, ofNat_uint32ToBytes]
  have metadata : f.read 0 chunkMetaSize = .ok (f.slice 0 chunkMetaSize) := by
    apply File.read_of_le
    have size := stores.size
    have header := chunkHeaderSize_le_endOf es
    rw [chunkHeaderSize_eq] at header
    unfold chunkMetaSize
    omega
  have found : (f.writeAll ws).recordEnd (head' - base).toNat = .ok (endOf es) := by
    rw [count_of_head stores.short at_head, stores'.recordEnd_take (Nat.le_refl _),
      List.take_length]
  have hash : ((f.slice 0 chunkMetaSize).drop 20).take 32 = gen := by
    rw [File.slice_slice 0 (by decide), labelled.genHash]
  constructor
  · rw [loadPile, metadata, ok_bind, word (by decide) heads.head, ok_bind,
      word (by decide) heads.checkA, ok_bind, word (by decide) heads.checkB, ok_bind,
      word (by decide) labelled.beginHeight, ok_bind, word (by decide) labelled.endHeight, ok_bind]
    rw [if_neg (not_not_intro aligned), if_neg (not_not_intro rfl), repaired, ok_bind]
    dsimp only
    rw [found, ok_bind, if_neg (fun beyond => Nat.not_le.mpr beyond.2 stores'.size), hash]
    rfl
  · exact ⟨rfl, rfl, at_head, stores', heads', labelled'⟩

theorem Holds.load (holds : p.Holds gen base es) (aligned : base % chunkUnit = 0) :
    loadPile p.file = .ok p := by
  have unchanged : repair p.headHeight p.headHeight p.headHeight = .ok (p.headHeight, []) :=
    if_pos ⟨rfl, rfl⟩
  rw [(loadPile_holds holds.heads holds.labelled holds.stores aligned unchanged
    holds.headHeight).1, File.writeAll_nil, ← holds.beginHeight, ← holds.genHash]

end Pile

end Fleta
