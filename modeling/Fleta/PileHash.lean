import Fleta.PileHistory

/-!
# Hashes above the last height

`GetHash` compares the height with the end of the chunk only, not with the head height. The
table entry of a height above the next one was never written: it is zero, and the first
bytes of the metadata are returned as a hash. For the next height the offset is the end of
the file, where nothing can be read.
-/

namespace Fleta

open ByteOrder Pile File List

namespace File

variable {f : File}

theorem size_write_le {w : Write} {hi : Nat} (before : f.size ≤ hi)
    (inside : w.stop ≤ hi) : (f.write w).size ≤ hi := by
  unfold write
  split
  · exact before
  · exact Nat.max_le.mpr ⟨before, inside⟩

theorem size_writeAll_le {ws : List Write} {hi : Nat} (before : f.size ≤ hi)
    (inside : ∀ w ∈ ws, w.stop ≤ hi) : (f.writeAll ws).size ≤ hi := by
  induction ws generalizing f with
  | nil => exact before
  | cons w ws ih =>
    apply ih (size_write_le before (inside w mem_cons_self))
    intro w' later
    exact inside w' (mem_cons_of_mem w later)

theorem slice_of_zeros {pos len : Nat} (zeros : ∀ i, i < len → f.byte (pos + i) = 0) :
    f.slice pos len = replicate len 0 := by
  apply eq_replicate_iff.mpr
  refine ⟨length_slice pos len f, fun b mem => ?_⟩
  simp only [slice, mem_map, mem_range] at mem
  obtain ⟨i, below, rfl⟩ := mem
  exact zeros i below

end File

namespace Pile

/-- The file ends behind the last record, and the table behind the last entry. -/
structure Blank (p : Pile) : Prop where
  ends : p.file.seekRecordEnd (p.headHeight - p.beginHeight).toNat = .ok p.file.size
  zeros : ∀ i, chunkMetaSize + (p.headHeight - p.beginHeight).toNat * 8 ≤ i →
    i < chunkHeaderSize → p.file.byte i = 0

theorem newPile_blank {gen : Hash256} {base : UInt32} {p : Pile} (made : newPile gen base = .ok p) :
    p.Blank := by
  unfold newPile at made
  split at made
  · cases made
  cases made
  have width : (newMeta gen base).length = chunkMetaSize := length_copyInto _ _
  have grown := size_le_write ⟨0, newMeta gen base⟩ (empty.grow chunkHeaderSize)
  have full : ((empty.grow chunkHeaderSize).write ⟨0, newMeta gen base⟩).size =
      chunkHeaderSize := by
    apply Nat.le_antisymm (size_write_le (Nat.le_refl _) _) grown
    rw [Write.stop, width]
    exact (by decide : 0 + chunkMetaSize ≤ max 0 chunkHeaderSize)
  constructor
  · rw [full, UInt32.sub_self, seekRecordEnd, recordEnd,
      if_pos UInt32.toNat_zero, ok_bind, if_neg (by decide)]
    rfl
  · intro i behind _
    rw [UInt32.sub_self] at behind
    have avoids : (⟨0, newMeta gen base⟩ : Write).Avoids chunkMetaSize (i + 1) :=
      .inl (by rw [Write.stop, width]; exact Nat.le_refl _)
    exact sameOn_write avoids (empty.grow chunkHeaderSize) i behind (Nat.lt_succ_self i)

variable [Gzip] {gen : Hash256} {base : UInt32} {es : List Entry} {p : Pile}

section

variable (holds : p.Holds gen base es)

include holds

theorem Holds.size_eq (blank : p.Blank) : p.file.size = endOf es := by
  have found := holds.seekRecordEnd_eq
  rw [blank.ends] at found
  exact Except.ok.inj found

theorem appendData_blank {p' : Pile} {height : UInt32} {e : Entry}
    (room : es.length < chunkUnit.toNat) (blank : p.Blank)
    (done : p.appendData height e.dataHash e.datas = (.ok (), p')) : p'.Blank := by
  have holds' := (appendData_holds holds room done).2
  have size := holds.size_eq blank
  have written := congrArg file (holds.appendData_ok done).2.1
  have inside := holds.writes_within room (Nat.le_refl (endOf es + totalLen e.datas))
  have full : p'.file.size = endOf (es ++ [e]) := by
    apply Nat.le_antisymm _ holds'.stores.size
    rw [written, endOf_append]
    exact size_writeAll_le (by omega) inside
  constructor
  · rw [holds'.seekRecordEnd_eq, full]
  · intro i behind before
    rw [holds'.count, length_append, length_singleton] at behind
    have header := chunkHeaderSize_le_endOf es
    -- the record goes behind the table, its entry before `i`, and the head heights to the front
    have avoid : ∀ w ∈ p.appendWrites (endOf es) e.dataHash e.datas, w.Avoids i (i + 1) := by
      intro w mem
      rw [holds.appendWrites_eq, recordWrites, mem_append, mem_append, mem_singleton] at mem
      rcases mem with (data | entry) | head
      · exact .inr (Nat.le_trans (by omega) (Write.consecutive_within _ _ w data).1)
      · left
        rw [entry, Write.stop, length_littleEndian]
        dsimp only
        omega
      · have front := before_headWrites w head
        unfold chunkMetaSize at behind
        exact .inl (by omega)
    rw [written, sameOn_writeAll avoid p.file i (Nat.le_refl i) (Nat.lt_succ_self i)]
    apply blank.zeros i _ before
    rw [holds.count]
    omega

theorem Holds.getHash_eq {i : Nat} (inChunk : i < chunkUnit.toNat)
    (fits : base.toNat + chunkUnit.toNat < 2 ^ 32) :
    p.getHash (base + UInt32.ofNat (i + 1)) =
      (p.file.seekRecordEnd i).bind fun offset => p.file.read offset 32 := by
  have inside : ¬base + UInt32.ofNat (i + 1) > p.beginHeight + chunkUnit := by
    rw [gt_iff_lt, UInt32.lt_iff_toNat_lt, holds.beginHeight, toNat_add_of_fits (by omega),
      UInt32.toNat_add]
    omega
  rw [getHash, if_neg inside, recordOffset, holds.beginHeight,
    count_of_head (n := i + 1) (by omega) rfl, Nat.add_sub_cancel]
  rfl

end

theorem Blank.getHash_next (blank : p.Blank) (holds : p.Holds gen base es)
    (room : es.length < chunkUnit.toNat) (fits : base.toNat + chunkUnit.toNat < 2 ^ 32) :
    p.getHash (base + UInt32.ofNat (es.length + 1)) = .error .endOfFile := by
  rw [holds.getHash_eq room fits, ← holds.count, blank.ends]
  exact if_pos ⟨by decide, Nat.le_refl _⟩

theorem Blank.getHash_later (blank : p.Blank) (holds : p.Holds gen base es) {i : Nat}
    (later : es.length < i) (inChunk : i < chunkUnit.toNat)
    (fits : base.toNat + chunkUnit.toNat < 2 ^ 32) :
    p.getHash (base + UInt32.ofNat (i + 1)) = .ok (p.file.slice 0 32) := by
  have header := chunkHeaderSize_le_endOf es
  have size := holds.size_eq blank
  have zeros : p.file.slice (chunkMetaSize + (i - 1) * 8) 8 = replicate 8 0 := by
    apply slice_of_zeros
    intro j below
    rw [chunkUnit_toNat] at inChunk
    apply blank.zeros
    · rw [holds.count]
      omega
    · rw [chunkHeaderSize_eq]
      unfold chunkMetaSize
      omega
  have inside : chunkMetaSize + (i - 1) * 8 + 8 ≤ p.file.size := by
    rw [chunkHeaderSize_eq] at header
    rw [chunkUnit_toNat] at inChunk
    unfold chunkMetaSize
    omega
  have start : p.file.seekRecordEnd i = .ok 0 := by
    rw [seekRecordEnd, recordEnd, if_neg (by omega), read_of_le inside, zeros]
    rfl
  rw [chunkHeaderSize_eq] at header
  rw [holds.getHash_eq inChunk fits, start]
  exact read_of_le (by omega)

end Pile

namespace DB

variable [Gzip] {gen : Hash256} {es : List Entry} {db : DB} {height : UInt32} {p : Pile}

theorem Appended.blank {db₀ : DB} (size : gen.length = 32) (start : empty.init gen = .ok db₀)
    (run : db₀.Appended es db) : ∀ p, db.piles.getLast? = some p → p.Blank := by
  induction run with
  | nil =>
    unfold init at start
    cases made : newPile gen 0 with
    | error err => simp [empty, made] at start
    | ok first =>
      simp only [empty, made, ne_eq, not_true_eq_false, if_false, Except.ok.injEq] at start
      intro p last
      rw [← start] at last
      cases last
      exact newPile_blank made
  | snoc height e before done ih =>
    have rep := before.represents size (init_represents size start)
    obtain ⟨k, q, last⟩ := rep.last
    intro p' last'
    obtain ⟨-, -, same | new⟩ := rep.appendData_cases last done
    · obtain ⟨room, p, step, result⟩ := same
      rw [result, getLast?_concat] at last'
      cases last'
      exact appendData_blank (rep.piles k q last.at_k) room (ih q last.found) step
    · obtain ⟨length, v, p, made, step, result⟩ := new
      rw [result, getLast?_concat] at last'
      cases last'
      have aligned := aligned_of_newPile made
      obtain ⟨v', made', fresh⟩ := newPile_holds size aligned
      cases made.symm.trans made'
      exact appendData_blank fresh (by decide) (newPile_blank made) step

/-- The end of the last chunk has wrapped around. -/
theorem Represents.getHash_high (rep : db.Represents gen es)
    (high : readableCount < height.toNat) : ∃ err, db.getHash height = .error err := by
  have some : height ≠ 0 := by
    intro zero
    rw [zero] at high
    cases high
  cases found : db.pileOf height with
  | error err => exact ⟨err, by rw [DB.getHash, if_neg some, found]; rfl⟩
  | ok p =>
    have position := found
    rw [DB.pileOf, toNat_pileIndex (by omega)] at position
    rw [readableCount_eq] at high
    cases at_k : db.piles[(height.toNat - 1) / chunkUnit.toNat]? with
    | none =>
      rw [at_k] at position
      cases position
    | some q =>
      rw [at_k] at position
      cases position
      have known := (List.getElem?_eq_some_iff.mp at_k).1
      have bound := rep.bound
      have here : (height.toNat - 1) / chunkUnit.toNat = 828 := by
        rw [chunkUnit_toNat] at known ⊢
        omega
      have holds := rep.piles _ p at_k
      rw [here] at holds
      have above : height > p.beginHeight + chunkUnit := by
        rw [holds.beginHeight, gt_iff_lt, UInt32.lt_iff_toNat_lt]
        exact Nat.lt_trans (by decide) high
      refine ⟨.invalidPileHeight, ?_⟩
      rw [getHash_of_pile some found, Pile.getHash, if_pos above]
      rfl

theorem Represents.getHash_beyond (rep : db.Represents gen es)
    (blank : ∀ p, db.piles.getLast? = some p → p.Blank) (low : height.toNat ≤ readableCount)
    (above : es.length < height.toNat) :
    (∃ err, db.getHash height = .error err) ↔
      height.toNat ≤ es.length + 1 ∨ pileCount es.length * chunkUnit.toNat < height.toNat := by
  have some : height ≠ 0 := by
    intro zero
    rw [zero] at above
    exact absurd above (Nat.not_lt_zero _)
  rw [readableCount_eq] at low
  cases found : db.pileOf height with
  | error err =>
    refine iff_of_true ⟨err, by rw [DB.getHash, if_neg some, found]; rfl⟩ (.inr ?_)
    rw [DB.pileOf, toNat_pileIndex (by omega)] at found
    split at found
    · cases found
    · rename_i none
      rw [getElem?_eq_none_iff, rep.count, Nat.le_div_iff_mul_le (by decide)] at none
      omega
  | ok p =>
    have last := rep.pileOf_beyond above found
    have holds := rep.piles _ p last.at_k
    have count := last.count.symm.trans rep.count
    have length := last.length
    have start := last.start
    have split := height_eq (height.toNat - 1)
    rw [Nat.sub_add_cancel (by omega), UInt32.ofNat_toNat] at split
    have whole := Nat.div_add_mod (height.toNat - 1) chunkUnit.toNat
    have inChunk : (height.toNat - 1) % chunkUnit.toNat < chunkUnit.toNat :=
      Nat.mod_lt _ (by decide)
    have early : (height.toNat - 1) / chunkUnit.toNat ≤ 827 := by
      rw [chunkUnit_toNat]
      omega
    rw [getHash_of_pile some found, ← count]
    generalize (height.toNat - 1) / chunkUnit.toNat = k at *
    generalize (height.toNat - 1) % chunkUnit.toNat = i at *
    have fits : (UInt32.ofNat (k * chunkUnit.toNat)).toNat + chunkUnit.toNat < 2 ^ 32 := by
      rw [toNat_base (by omega), chunkUnit_toNat]
      omega
    rw [Nat.succ_mul]
    rw [Nat.mul_comm] at whole
    have known := blank p last.found
    by_cases next : height.toNat ≤ es.length + 1
    · have here : (chunk k es).length = i := by omega
      refine iff_of_true ⟨.endOfFile, ?_⟩ (.inl next)
      rw [split, ← here]
      exact known.getHash_next holds (by omega) fits
    · refine iff_of_false ?_ (by omega)
      rintro ⟨err, failed⟩
      rw [split, known.getHash_later holds (by omega) inChunk fits] at failed
      cases failed

/-- The hash of a height of the log is returned, and an error for any other height. -/
def HashOrError (gen : Hash256) (es : List Entry) (height : UInt32) (db : DB) : Prop :=
  match (gen :: es.map Entry.dataHash)[height.toNat]? with
  | some hash => db.getHash height = .ok hash
  | none => ∃ err, db.getHash height = .error err

/-- The heights for which `GetHash` is right in a log of `count` entries: those of the log
below the last chunk, the next one, and those for which there is no chunk. -/
def HashFound (count height : Nat) : Prop :=
  if height ≤ readableCount then
    height ≤ count + 1 ∨ pileCount count * chunkUnit.toNat < height
  else count < height

theorem getHash_exact_iff {db₀ : DB} (size : gen.length = 32)
    (hashSize : ∀ e ∈ es, e.dataHash.length = 32) (start : empty.init gen = .ok db₀)
    (run : db₀.Appended es db) (height : UInt32) :
    db.HashOrError gen es height ↔ HashFound es.length height.toNat := by
  have rep := run.represents size (init_represents size start)
  unfold HashOrError HashFound
  by_cases above : es.length < height.toNat
  · rw [getElem?_eq_none (by simpa using Nat.succ_le_of_lt above)]
    by_cases low : height.toNat ≤ readableCount
    · rw [if_pos low]
      exact rep.getHash_beyond (run.blank size start) low above
    · rw [if_neg low]
      exact iff_of_true (rep.getHash_high (by omega)) above
  · cases position : height.toNat with
    | zero =>
      obtain rfl : height = 0 := UInt32.toNat_inj.mp position
      refine iff_of_true ?_ (by rw [if_pos (Nat.zero_le _)]; exact .inl (Nat.zero_le _))
      have first := getElem?_eq_getElem (l := db.piles) (i := 0)
        (by rw [rep.count]; exact Nat.succ_pos _)
      simp [DB.getHash, head?_eq_getElem?, first, (rep.piles 0 _ first).genHash]
    | succ i =>
      have at_i : es[i]? = some es[i] := getElem?_eq_getElem (by omega)
      obtain rfl : height = UInt32.ofNat (i + 1) := by rw [← position, UInt32.ofNat_toNat]
      rw [getElem?_cons_succ, getElem?_map, at_i]
      dsimp only [Option.map_some]
      by_cases low : i + 1 ≤ readableCount
      · rw [if_pos low]
        obtain ⟨p, offset, found, here⟩ := rep.located at_i low
          (hashSize _ (mem_of_getElem? at_i))
        refine iff_of_true ?_ (.inl (by omega))
        rw [getHash_of_pile (by intro zero; rw [zero] at position; cases position) found,
          here.getHash_eq]
      · rw [if_neg low]
        have high : readableCount < (UInt32.ofNat (i + 1)).toNat := by omega
        obtain ⟨err, failed⟩ := rep.getHash_high high
        refine iff_of_false (fun right => ?_) (by omega)
        rw [failed] at right
        cases right

end DB

namespace Instances

theorem own_hash_returned : ∃ db₀ db : DB, DB.empty.init zeroHash = .ok db₀ ∧
    db₀.Appended [fewItems] db ∧ db.HashOrError zeroHash [fewItems] 1 := by
  obtain ⟨db₀, made, run⟩ := logOf_run (e := fewItems) (by decide +kernel)
  refine ⟨db₀, _, made, run, (DB.getHash_exact_iff (by decide) ?_ made run 1).mpr (.inl ?_)⟩
  · intro e mem
    rw [mem_singleton.mp mem]
    decide
  · decide

/-- A hash is returned for the third height of a log with one entry. -/
theorem metadata_returned_as_hash : ∃ db₀ db : DB, DB.empty.init zeroHash = .ok db₀ ∧
    db₀.Appended [fewItems] db ∧ ¬db.HashOrError zeroHash [fewItems] 3 := by
  obtain ⟨db₀, made, run⟩ := logOf_run (e := fewItems) (by decide +kernel)
  refine ⟨db₀, _, made, run, fun ⟨err, failed⟩ => ?_⟩
  have read : ((logOf fewItems).2.getHash 3).isOk = true := by decide +kernel
  rw [failed] at read
  cases read

end Instances

end Fleta
