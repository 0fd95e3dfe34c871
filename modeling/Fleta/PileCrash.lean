import Fleta.PileHistory

/-!
# Recovery after a crash

`AppendData` writes the record and its table entry where nothing is stored yet, and then the
new head height three times. Whichever of the writes was the last one, and whatever was
left of it, `LoadPile` finds a head height for which everything is in the file.
-/

namespace Fleta

open ByteOrder

/-- The writes that reach the file: all, or the first ones and what there is of the next, which
may be nothing or have any content. -/
inductive Crash : List Write → List Write → Prop where
  | none : Crash [] []
  | torn {w : Write} (ws : List Write) {bytes : Bytes} : bytes.length ≤ w.bytes.length →
      Crash (w :: ws) [⟨w.pos, bytes⟩]
  | next (w : Write) {ws done : List Write} : Crash ws done → Crash (w :: ws) (w :: done)

namespace Crash

theorem all (ws : List Write) : Crash ws ws := by
  induction ws with
  | nil => exact .none
  | cons w ws ih => exact .next w ih

theorem append {front back done : List Write} (crash : Crash (front ++ back) done) :
    (∀ w ∈ done, ∃ w' ∈ front, w.pos = w'.pos ∧ w.stop ≤ w'.stop) ∨
      ∃ rest, done = front ++ rest ∧ Crash back rest := by
  induction front generalizing done with
  | nil => exact .inr ⟨done, rfl, crash⟩
  | cons w front ih =>
    cases crash with
    | torn _ short =>
      refine .inl fun w' mem => ⟨w, List.mem_cons_self, ?_⟩
      rw [List.mem_singleton.mp mem]
      exact ⟨rfl, Nat.add_le_add_left short _⟩
    | next _ later =>
      rcases ih later with within | ⟨rest, rfl, crash⟩
      · refine .inl fun w' mem => ?_
        cases mem with
        | head => exact ⟨w, List.mem_cons_self, rfl, Nat.le_refl _⟩
        | tail _ mem =>
          obtain ⟨other, listed, same⟩ := within w' mem
          exact ⟨other, List.mem_cons_of_mem w listed, same⟩
      · exact .inr ⟨rest, rfl, crash⟩

theorem within {ws done : List Write} (crash : Crash ws done) :
    ∀ w ∈ done, ∃ w' ∈ ws, w.pos = w'.pos ∧ w.stop ≤ w'.stop := by
  rw [← List.append_nil ws] at crash
  rcases crash.append with within | ⟨rest, rfl, last⟩
  · exact within
  · cases last
    intro w mem
    rw [List.append_nil] at mem
    exact ⟨w, mem, rfl, Nat.le_refl _⟩

end Crash

namespace File

theorem slice_word (pos : Nat) (f : File) : ∃ value, f.slice pos 4 = uint32ToBytes value := by
  have low := from_little_endian_lt (f.slice pos 4)
  have word := little_endian_from_little_endian (f.slice pos 4)
  rw [length_slice] at low word
  refine ⟨UInt32.ofNat (fromLittleEndian (f.slice pos 4)), ?_⟩
  rw [uint32ToBytes, UInt32.toNat_ofNat', Nat.mod_eq_of_lt (by omega), word]

theorem Heads.writeAll {head checkA checkB : UInt32} {f : File} (heads : f.Heads head checkA checkB)
    {ws : List Write} (behind : ∀ w ∈ ws, 12 ≤ w.pos) :
    (f.writeAll ws).Heads head checkA checkB := by
  have same : SameOn 0 12 (f.writeAll ws) f := sameOn_writeAll (fun w mem => .inr (behind w mem)) f
  refine ⟨?_, ?_, ?_⟩
  · rw [same.slice (by omega) (by omega), heads.head]
  · rw [same.slice (by omega) (by omega), heads.checkA]
  · rw [same.slice (by omega) (by omega), heads.checkB]

end File

namespace Pile

theorem repair_first (value n : UInt32) : ∃ ws, repair value n n = .ok (n, ws) := by
  unfold repair
  by_cases same : value = n
  · exact ⟨_, by rw [if_pos ⟨same, rfl⟩, same]⟩
  · exact ⟨_, by rw [if_neg (fun both => same both.1), if_pos rfl]⟩

theorem repair_second (value n : UInt32) :
    ∃ head ws, repair (n + 1) value n = .ok (head, ws) ∧ (head = n ∨ head = n + 1) := by
  unfold repair
  by_cases same : value = n
  · exact ⟨_, _, by rw [if_neg (by simp [same]), if_pos same], .inl same⟩
  · exact ⟨_, _, by rw [if_neg (fun both => same both.2), if_neg same, if_pos rfl], .inr rfl⟩

theorem repair_third (value n : UInt32) : ∃ ws, repair (n + 1) (n + 1) value = .ok (n + 1, ws) := by
  unfold repair
  by_cases same : n + 1 = value
  · exact ⟨_, if_pos ⟨rfl, same⟩⟩
  · rw [if_neg (fun both => same both.2), if_neg same]
    by_cases last : n + 1 = value + 1
    · exact ⟨_, if_pos last⟩
    · exact ⟨_, by rw [if_neg last, if_pos rfl]⟩

variable {done : List Write}

/-- Whatever is left of the last write, the head heights can be repaired. -/
theorem crash_heads {n : UInt32} {f : File} (heads : f.Heads n n n)
    (crash : Crash (headWrites (n + 1)) done) :
    ∃ head checkA checkB head' ws, (f.writeAll done).Heads head checkA checkB ∧
      repair head checkA checkB = .ok (head', ws) ∧ (head' = n ∨ head' = n + 1) := by
  cases crash with
  | torn _ short =>
    obtain ⟨value, word⟩ := File.slice_word 0 (f.write ⟨0, _⟩)
    obtain ⟨ws, fixed⟩ := repair_first value n
    refine ⟨value, n, n, n, ws, ⟨word, ?_, ?_⟩, fixed, .inl rfl⟩
    · exact .trans (f.slice_write_short short (by simp)) heads.checkA
    · exact .trans (f.slice_write_short short (by simp)) heads.checkB
  | next _ later =>
    have first := f.slice_write_uint32 0 (n + 1)
    have third : (f.write ⟨0, uint32ToBytes (n + 1)⟩).slice 8 4 = uint32ToBytes n :=
      .trans (f.slice_write_elsewhere (by omega)) heads.checkB
    rw [File.writeAll_cons]
    generalize f.write ⟨0, uint32ToBytes (n + 1)⟩ = f at first third ⊢
    cases later with
    | torn _ short =>
      obtain ⟨value, word⟩ := File.slice_word 4 (f.write ⟨4, _⟩)
      obtain ⟨head, ws, fixed, known⟩ := repair_second value n
      refine ⟨n + 1, value, n, head, ws, ⟨?_, word, ?_⟩, fixed, known⟩
      · exact .trans (f.slice_write_short short (by simp)) first
      · exact .trans (f.slice_write_short short (by simp)) third
    | next _ later =>
      rename_i rest
      have first : (f.write ⟨4, uint32ToBytes (n + 1)⟩).slice 0 4 = uint32ToBytes (n + 1) :=
        .trans (f.slice_write_elsewhere (by omega)) first
      have second := f.slice_write_uint32 4 (n + 1)
      rw [File.writeAll_cons]
      generalize f.write ⟨4, uint32ToBytes (n + 1)⟩ = f at first second ⊢
      -- the third write is whole or not
      have short : ∃ bytes, bytes.length ≤ 4 ∧ f.writeAll rest = f.write ⟨8, bytes⟩ := by
        cases later with
        | torn _ short => exact ⟨_, by rwa [length_uint32ToBytes] at short, rfl⟩
        | next _ last =>
          cases last
          exact ⟨_, Nat.le_of_eq (length_uint32ToBytes (n + 1)), rfl⟩
      obtain ⟨bytes, short, written⟩ := short
      obtain ⟨value, word⟩ := File.slice_word 8 (f.write ⟨8, bytes⟩)
      obtain ⟨ws, fixed⟩ := repair_third value n
      rw [written]
      refine ⟨n + 1, n + 1, value, n + 1, ws, ⟨?_, ?_, word⟩, fixed, .inr rfl⟩
      · exact (f.slice_write_short short (by omega)).trans first
      · exact (f.slice_write_short short (by omega)).trans second

variable [Gzip] {gen : Hash256} {base : UInt32} {es : List Entry} {e : Entry} {p : Pile}

theorem spares_recordWrites (short : es.length < chunkUnit.toNat) :
    ∀ w ∈ recordWrites es e, File.Stores.Spares es w := by
  intro w mem
  rw [recordWrites, List.mem_append, List.mem_singleton] at mem
  cases mem with
  | inl data =>
    exact File.Stores.spares_record (Nat.le_refl _) (Nat.le_of_lt short) _ w data
  | inr entry =>
    rw [entry]
    exact File.Stores.spares_entry short _

/-- The file that a crash leaves is loaded with the entries before or after the append. -/
theorem Holds.load_crashed {p₁ : Pile} {height : UInt32}
    (holds : p.Holds gen base es) (aligned : base % chunkUnit = 0) (room : es.length < chunkUnit.toNat)
    (accepted : p.appendData height e.dataHash e.datas = (.ok (), p₁))
    (crash : Crash (p.appendWrites (endOf es) e.dataHash e.datas) done) :
    ∃ es' p', (es' = es ∨ es' = es ++ [e]) ∧ loadPile (p.file.writeAll done) = .ok p' ∧
      p'.Holds gen base es' := by
  have limit := (appendData_holds holds room accepted).2.stores.limit
  have front : ∀ w ∈ recordWrites es e, 256 ≤ w.pos := behind_recordWrites
  rw [holds.appendWrites_eq] at crash
  rcases crash.append with within | ⟨rest, rfl, last⟩
  · have behind : ∀ w ∈ done, 256 ≤ w.pos := by
      intro w mem
      obtain ⟨w', listed, same, -⟩ := within w mem
      rw [same]
      exact front w' listed
    have spared : ∀ w ∈ done, File.Stores.Spares es w := by
      intro w mem
      obtain ⟨w', listed, same, stop⟩ := within w mem
      have spares := spares_recordWrites room w' listed
      unfold File.Stores.Spares Write.Avoids at spares ⊢
      omega
    have loaded := loadPile_holds (holds.heads.writeAll fun w mem => by
        have := behind w mem
        omega)
      (holds.labelled.writeAll fun w mem => .inr (by have := behind w mem; omega))
      (holds.stores.writeAll spared) aligned (if_pos ⟨rfl, rfl⟩) holds.headHeight
    exact ⟨es, _, .inl rfl, loaded⟩
  · have stores := holds.stores.writeAll (spares_recordWrites (e := e) room)
    have stores' := stores_recordWrites holds.stores room limit
    have heads := holds.heads.writeAll fun w (mem : w ∈ recordWrites es e) => by
      have := front w mem
      omega
    have labelled := holds.labelled.writeAll fun w (mem : w ∈ recordWrites es e) =>
      .inr (by have := front w mem; omega)
    have before : ∀ w ∈ rest, w.stop ≤ 12 := by
      intro w mem
      obtain ⟨w', listed, -, stop⟩ := last.within w mem
      exact Nat.le_trans stop (before_headWrites w' listed)
    rw [File.writeAll_append]
    generalize p.file.writeAll (recordWrites es e) = g at stores stores' heads labelled ⊢
    have spared : ∀ es, ∀ w ∈ rest, File.Stores.Spares es w := fun es w mem =>
      File.Stores.spares_metadata (Nat.le_trans (before w mem) (by decide))
    obtain ⟨head, checkA, checkB, head', ws, heads, fixed, known⟩ := crash_heads heads last
    have labelled := labelled.writeAll fun w mem => .inl (before w mem)
    rcases known with old | new
    · have loaded := loadPile_holds heads labelled (stores.writeAll (spared es)) aligned fixed
        (old.trans holds.headHeight)
      exact ⟨es, _, .inl rfl, loaded⟩
    · have next : head' = base + UInt32.ofNat (es ++ [e]).length := by
        rw [new, holds.headHeight, List.length_append, List.length_singleton, UInt32.ofNat_add,
          ← UInt32.add_assoc]
        rfl
      have loaded := loadPile_holds heads labelled (stores'.writeAll (spared _)) aligned fixed next
      exact ⟨es ++ [e], _, .inr rfl, loaded⟩

/-- The entries of the pile that begins at `base` are read back as they were appended. -/
def ReadsBack (base : UInt32) (es : List Entry) (p : Pile) : Prop :=
  ∀ i e, es[i]? = some e → p.getHash (base + UInt32.ofNat (i + 1)) = .ok e.dataHash ∧
    ∀ (j : Nat) (data : Bytes), e.datas[j]? = some data →
      p.getData (base + UInt32.ofNat (i + 1)) j = .ok data

/-- The file is loaded with the entries. A pile that is full is not appended to. -/
structure Recovers (base : UInt32) (es : List Entry) (f : File) (p : Pile) : Prop where
  loaded : loadPile f = .ok p
  head : p.headHeight = base + UInt32.ofNat es.length
  reads : p.ReadsBack base es
  goesOn : es.length < chunkUnit.toNat → ∀ e : Entry, endOf es + totalLen e.datas ≤ maxFileSize →
    ∃ p', p.appendData (p.headHeight + 1) e.dataHash e.datas = (.ok (), p') ∧ p'.ReadsBack base es

/-- Wherever the next append is interrupted, the pile is loaded with the entries before or
after it. -/
def SurvivesCrash (base : UInt32) (es : List Entry) (e : Entry) (p : Pile) : Prop :=
  ∀ offset done, p.file.seekRecordEnd (p.headHeight - p.beginHeight).toNat = .ok offset →
    Crash (p.appendWrites offset e.dataHash e.datas) done →
    ∃ es' p', (es' = es ∨ es' = es ++ [e]) ∧ Recovers base es' (p.file.writeAll done) p'

structure Intact (base : UInt32) (es : List Entry) : Prop where
  inRange : base.toNat + chunkUnit.toNat < 2 ^ 32
  short : ∀ e ∈ es, Short (e.datas.map Gzip.compress)

variable [LawfulGzip]

theorem Holds.readsBack {es₁ es₂ : List Entry} (holds : p.Holds gen base (es₁ ++ es₂))
    (intact : Intact base es₁) (hashSize : ∀ e ∈ es₁, e.dataHash.length = 32)
    (few : ∀ e ∈ es₁, e.datas.length < 64) : p.ReadsBack base es₁ := by
  intro i e at_i
  have mem := List.mem_of_getElem? at_i
  have items := few e mem
  have here : (es₁ ++ es₂)[i]? = some e := by
    rw [List.getElem?_append_left (List.getElem?_eq_some_iff.mp at_i).1, at_i]
  have located := holds.located here intact.inRange (hashSize e mem) (by omega)
  exact ⟨located.getHash_eq, fun j data => located.getData_ok items (intact.short e mem)⟩

theorem Holds.recovers {f : File} (holds : p.Holds gen base es) (loaded : loadPile f = .ok p)
    (intact : Intact base es) (hashSize : ∀ e ∈ es, e.dataHash.length = 32)
    (few : ∀ e ∈ es, e.datas.length < 64) : Recovers base es f p := by
  refine ⟨loaded, holds.headHeight, ?_, fun room e fits => ?_⟩
  · rw [← List.append_nil es] at holds
    exact holds.readsBack intact hashSize few
  · obtain ⟨p', done⟩ := appendData_accepts holds (e := e) room fits
    exact ⟨p', done, (appendData_holds holds room done).2.readsBack intact hashSize few⟩

theorem Holds.intact (holds : p.Holds gen base es) (aligned : base % chunkUnit = 0)
    (some : es ≠ []) (hashSize : ∀ e ∈ es, e.dataHash.length = 32)
    (few : ∀ e ∈ es, e.datas.length < 64) (reads : p.ReadsBack base es) : Intact base es := by
  have inRange : base.toNat + chunkUnit.toNat < 2 ^ 32 := by
    apply Nat.lt_of_not_le
    intro wraps
    have multiple := congrArg UInt32.toNat aligned
    have bound := base.toNat_lt
    rw [UInt32.toNat_mod, chunkUnit_toNat, UInt32.toNat_zero] at multiple
    rw [chunkUnit_toNat] at wraps
    have above : base + UInt32.ofNat (0 + 1) > p.beginHeight + chunkUnit := by
      rw [holds.beginHeight, gt_iff_lt, UInt32.lt_iff_toNat_lt, UInt32.toNat_add, UInt32.toNat_add,
        chunkUnit_toNat, UInt32.toNat_ofNat']
      omega
    obtain ⟨first, rest, rfl⟩ := List.exists_cons_of_ne_nil some
    have read := (reads 0 first rfl).1
    rw [getHash, if_pos above] at read
    cases read
  refine ⟨inRange, fun e mem => ?_⟩
  obtain ⟨i, at_i⟩ := List.mem_iff_getElem?.mp mem
  have items := few e mem
  have located := holds.located at_i inRange (hashSize e mem) (by omega)
  exact located.short_of_reads items (reads i e at_i).2

variable {p₁ : Pile} {height : UInt32} (holds : p.Holds gen base es)
  (aligned : base % chunkUnit = 0) (room : es.length < chunkUnit.toNat)
  (hashSize : ∀ e' ∈ es ++ [e], e'.dataHash.length = 32)
  (few : ∀ e' ∈ es ++ [e], e'.datas.length < 64)
  (accepted : p.appendData height e.dataHash e.datas = (.ok (), p₁))

include holds aligned room hashSize few accepted

/-- Without a crash the pile is the one that the append leaves. -/
theorem Holds.intact_of_survives (survives : p.SurvivesCrash base es e) :
    Intact base (es ++ [e]) := by
  have holds₁ := (appendData_holds holds room accepted).2
  obtain ⟨es', p', same, recovers⟩ := survives _ _ holds.seekRecordEnd_eq (.all _)
  have loaded := recovers.loaded
  have written := congrArg Pile.file (holds.appendData_ok accepted).2.1
  dsimp only at written
  rw [← written, holds₁.load aligned] at loaded
  cases loaded
  have heads := holds₁.headHeight.symm.trans recovers.head
  rw [UInt32.add_right_inj] at heads
  rcases same with rfl | rfl
  · have count := congrArg UInt32.toNat heads
    rw [toNat_ofNat_of_short holds₁.stores.short, toNat_ofNat_of_short (Nat.le_of_lt room)] at count
    simp at count
  · exact holds₁.intact aligned (by simp) hashSize few recovers.reads

theorem survivesCrash_iff : p.SurvivesCrash base es e ↔ Intact base (es ++ [e]) := by
  constructor
  · exact holds.intact_of_survives aligned room hashSize few accepted
  · intro intact offset done found crash
    cases holds.seekRecordEnd_eq.symm.trans found
    obtain ⟨es', p', same, loaded, holds'⟩ := holds.load_crashed aligned room accepted crash
    have kept : ∀ e' ∈ es', e' ∈ es ++ [e] := by
      rcases same with rfl | rfl
      · exact fun e' mem => List.mem_append_left _ mem
      · exact fun e' mem => mem
    exact ⟨es', p', same, holds'.recovers loaded
      ⟨intact.inRange, fun e' mem => intact.short e' (kept e' mem)⟩
      (fun e' mem => hashSize e' (kept e' mem)) (fun e' mem => few e' (kept e' mem))⟩

end Pile

namespace Instances

theorem first_append_survives : ∃ p : Pile, Pile.newPile zeroHash 0 = .ok p ∧
    p.SurvivesCrash 0 [] fewItems := by
  have aligned : (0 : UInt32) % Pile.chunkUnit = 0 := by decide
  obtain ⟨p, made, holds⟩ := Pile.newPile_holds (by decide : zeroHash.length = 32) aligned
  obtain ⟨p₁, accepted⟩ := Pile.appendData_accepts holds (e := fewItems) (by decide) (by decide)
  exact ⟨p, made, (Pile.survivesCrash_iff holds aligned (by decide) (by decide) (by decide)
    accepted).mpr ⟨by decide, by decide⟩⟩

/-- The entries of the last pile are not read back. -/
theorem last_pile_not_recovered : ∃ p p₁ : Pile, Pile.newPile zeroHash 4292352000 = .ok p ∧
    p.appendData 4292352001 fewItems.dataHash fewItems.datas = (.ok (), p₁) ∧
    ¬p.SurvivesCrash 4292352000 [] fewItems := by
  have aligned : (4292352000 : UInt32) % Pile.chunkUnit = 0 := by decide
  obtain ⟨p, made, holds⟩ := Pile.newPile_holds (by decide : zeroHash.length = 32) aligned
  obtain ⟨p₁, accepted⟩ := Pile.appendData_accepts holds (e := fewItems) (by decide) (by decide)
  rw [holds.headHeight] at accepted
  refine ⟨p, p₁, made, accepted, fun survives => ?_⟩
  have intact := holds.intact_of_survives aligned (by decide) (by decide) (by decide) accepted survives
  exact absurd intact.inRange (by decide)

end Instances

end Fleta
