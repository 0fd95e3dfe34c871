import Fleta.ByteOrder

/-!
# Random-access files

A file is its size and the byte at every position; what lies past the end is zero, so
that a hole left by a seek reads as zeros. A write is a position and the bytes that go
there. The lemmas say what a sequence of writes leaves alone and what it puts in place;
a write that stopped half way is a write of the first bytes only.
-/

namespace Fleta

open List

structure File where
  size : Nat
  byte : Nat → UInt8
  zero_past : ∀ i, size ≤ i → byte i = 0

structure Write where
  pos : Nat
  bytes : Bytes

namespace Write

def stop (w : Write) : Nat := w.pos + w.bytes.length

def Within (lo hi : Nat) (w : Write) : Prop := lo ≤ w.pos ∧ w.stop ≤ hi

def Avoids (lo hi : Nat) (w : Write) : Prop := w.stop ≤ lo ∨ hi ≤ w.pos

def consecutive : Nat → List Bytes → List Write
  | _, [] => []
  | pos, chunk :: rest => ⟨pos, chunk⟩ :: consecutive (pos + chunk.length) rest

theorem consecutive_within (pos : Nat) (chunks : List Bytes) :
    ∀ w ∈ consecutive pos chunks, w.Within pos (pos + chunks.flatten.length) := by
  induction chunks generalizing pos with
  | nil =>
    intro w mem
    cases mem
  | cons chunk rest ih =>
    intro w mem
    rw [flatten_cons, length_append]
    cases mem with
    | head =>
      unfold Within stop
      dsimp only
      omega
    | tail _ later =>
      have within := ih (pos + chunk.length) w later
      unfold Within at within ⊢
      omega

theorem stop_consecutive {chunks : List Bytes} (some : chunks ≠ []) {pos hi : Nat}
    (below : ∀ w ∈ consecutive pos chunks, w.stop ≤ hi) : pos + chunks.flatten.length ≤ hi := by
  induction chunks generalizing pos with
  | nil => exact absurd rfl some
  | cons chunk rest ih =>
    have first := below ⟨pos, chunk⟩ mem_cons_self
    rw [flatten_cons, length_append]
    cases rest with
    | nil => simpa [stop] using first
    | cons next rest =>
      have later := ih (cons_ne_nil next rest)
        (fun w mem => below w (mem_cons_of_mem _ mem))
      omega

end Write

namespace File

def empty : File := ⟨0, fun _ => 0, fun _ _ => rfl⟩

def grow (size : Nat) (f : File) : File where
  size := max f.size size
  byte := f.byte
  zero_past i past := f.zero_past i (by omega)

def write (w : Write) (f : File) : File where
  size := if w.bytes.isEmpty then f.size else max f.size w.stop
  byte i := if w.pos ≤ i then (w.bytes[i - w.pos]?).getD (f.byte i) else f.byte i
  zero_past i past := by
    cases bytes : w.bytes with
    | nil =>
      simp only [bytes, isEmpty_nil, if_true] at past
      simp [f.zero_past i past]
    | cons b bs =>
      have stop : w.stop = w.pos + (bs.length + 1) := by
        rw [Write.stop, bytes, length_cons]
      simp only [bytes, isEmpty_cons, Bool.false_eq_true, if_false] at past
      have old : f.byte i = 0 := f.zero_past i (by omega)
      have none : (b :: bs)[i - w.pos]? = none := by
        rw [getElem?_eq_none_iff, length_cons]
        omega
      rw [none, old]
      simp

def writeAll (ws : List Write) (f : File) : File := ws.foldl (fun f w => f.write w) f

@[simp] theorem writeAll_nil (f : File) : f.writeAll [] = f := rfl

variable (w : Write) (ws : List Write)

@[simp] theorem writeAll_cons (f : File) :
    f.writeAll (w :: ws) = (f.write w).writeAll ws := rfl

theorem writeAll_append (ws ws' : List Write) (f : File) :
    f.writeAll (ws ++ ws') = (f.writeAll ws).writeAll ws' :=
  foldl_append

def slice (pos len : Nat) (f : File) : Bytes := (range len).map fun i => f.byte (pos + i)

@[simp] theorem length_slice (pos len : Nat) (f : File) : (f.slice pos len).length = len := by
  simp [slice]

theorem slice_add (pos len len' : Nat) (f : File) :
    f.slice pos (len + len') = f.slice pos len ++ f.slice (pos + len) len' := by
  simp [slice, range_add, Nat.add_assoc]

theorem slice_slice {start count len : Nat} (pos : Nat) (short : start + count ≤ len) (f : File) :
    ((f.slice pos len).drop start).take count = f.slice (pos + start) count := by
  obtain ⟨rest, rfl⟩ := Nat.exists_eq_add_of_le short
  rw [Nat.add_assoc, slice_add, drop_left' (length_slice pos start f), slice_add,
    take_left' (length_slice _ count f)]

theorem slice_of_slice_append {pos : Nat} {front middle back : Bytes} {f : File}
    (whole : f.slice pos (front ++ (middle ++ back)).length = front ++ (middle ++ back)) :
    f.slice (pos + front.length) middle.length = middle := by
  simp only [length_append, slice_add] at whole
  have behind := append_inj_right whole (by simp)
  exact append_inj_left behind (by simp)

def SameOn (lo hi : Nat) (f g : File) : Prop := ∀ i, lo ≤ i → i < hi → f.byte i = g.byte i

variable {lo hi : Nat}

theorem SameOn.trans {f g h : File} (left : SameOn lo hi f g)
    (right : SameOn lo hi g h) : SameOn lo hi f h :=
  fun i above below => (left i above below).trans (right i above below)

theorem SameOn.slice {lo hi pos len : Nat} {f g : File} (same : SameOn lo hi f g)
    (above : lo ≤ pos) (below : pos + len ≤ hi) : f.slice pos len = g.slice pos len := by
  apply map_congr_left
  intro i mem
  rw [mem_range] at mem
  exact same (pos + i) (by omega) (by omega)

theorem sameOn_write {w : Write} (avoids : w.Avoids lo hi) (f : File) :
    SameOn lo hi (f.write w) f := by
  intro i above below
  unfold Write.Avoids Write.stop at avoids
  simp only [write]
  split
  · have none : w.bytes[i - w.pos]? = none := by
      rw [getElem?_eq_none_iff]
      omega
    rw [none, Option.getD_none]
  · rfl

theorem sameOn_writeAll {ws : List Write} (avoid : ∀ w ∈ ws, w.Avoids lo hi)
    (f : File) : SameOn lo hi (f.writeAll ws) f := by
  induction ws generalizing f with
  | nil => exact fun i _ _ => rfl
  | cons w ws ih =>
    have later := ih (fun w mem => avoid w (mem_cons_of_mem _ mem)) (f.write w)
    exact later.trans (sameOn_write (avoid w mem_cons_self) f)

theorem slice_write (f : File) : (f.write w).slice w.pos w.bytes.length = w.bytes := by
  apply ext_getElem
  · simp
  · intro i left right
    simp [slice, write, right]

theorem slice_writeAll_consecutive (pos : Nat) (chunks : List Bytes) (f : File) :
    (f.writeAll (Write.consecutive pos chunks)).slice pos chunks.flatten.length =
      chunks.flatten := by
  induction chunks generalizing pos f with
  | nil => simp [slice]
  | cons chunk rest ih =>
    rw [flatten_cons, length_append, slice_add, Write.consecutive, writeAll_cons, ih]
    congr 1
    have kept : SameOn pos (pos + chunk.length)
        ((f.write ⟨pos, chunk⟩).writeAll (Write.consecutive (pos + chunk.length) rest))
        (f.write ⟨pos, chunk⟩) := by
      apply sameOn_writeAll
      intro w mem
      exact .inr (Write.consecutive_within _ rest w mem).1
    rw [kept.slice (Nat.le_refl _) (Nat.le_refl _)]
    exact slice_write ⟨pos, chunk⟩ f

theorem size_le_write (f : File) : f.size ≤ (f.write w).size := by
  simp only [write]
  split
  · exact Nat.le_refl _
  · exact Nat.le_max_left _ _

theorem size_le_writeAll (f : File) : f.size ≤ (f.writeAll ws).size := by
  induction ws generalizing f with
  | nil => exact Nat.le_refl _
  | cons w ws ih => exact Nat.le_trans (size_le_write w f) (ih _)

theorem stop_le_size_write {w : Write} (some : w.bytes ≠ []) (f : File) :
    w.stop ≤ (f.write w).size := by
  simp only [write, List.isEmpty_iff, if_neg some]
  exact Nat.le_max_right _ _

theorem stop_le_size_consecutive {chunks : List Bytes} (some : chunks.flatten ≠ []) (pos : Nat)
    (f : File) :
    pos + chunks.flatten.length ≤ (f.writeAll (Write.consecutive pos chunks)).size := by
  induction chunks generalizing pos f with
  | nil => exact absurd rfl some
  | cons chunk rest ih =>
    rw [flatten_cons, length_append, Write.consecutive, writeAll_cons]
    by_cases nothing : rest.flatten = []
    · have first : chunk ≠ [] := by
        intro none
        rw [flatten_cons, none, nothing] at some
        exact some rfl
      have written := stop_le_size_write (w := ⟨pos, chunk⟩) first f
      have grown := size_le_writeAll (Write.consecutive (pos + chunk.length) rest)
        (f.write ⟨pos, chunk⟩)
      rw [nothing, length_nil]
      exact Nat.le_trans written grown
    · have later := ih nothing (pos + chunk.length) (f.write ⟨pos, chunk⟩)
      omega

end File

end Fleta
