import Fleta.ByteOrder

/-!
# Self-delimiting encodings

An encoding that knows where it ends: what follows it is given back by the reader. Such
encodings are built from those of bytes and words by pairing, by lists whose elements are
marked, and along a change of representation.
-/

namespace Fleta

open ByteOrder

structure SelfDelimiting (α : Type) where
  write : α → Bytes
  read : Bytes → Option (α × Bytes)
  read_write : ∀ value rest, read (write value ++ rest) = some (value, rest)

namespace SelfDelimiting

variable {α β : Type}

def byte : SelfDelimiting UInt8 where
  write value := [value]
  read
    | [] => none
    | value :: rest => some (value, rest)
  read_write _ _ := rfl

def word (width : Nat) (toNat : α → Nat) (ofNat : Nat → α) (inverse : ∀ value, ofNat (toNat value) = value)
    (fits : ∀ value, toNat value < 256 ^ width) : SelfDelimiting α where
  write value := littleEndian width (toNat value)
  read bytes :=
    if bytes.length < width then none
    else some (ofNat (fromLittleEndian (bytes.take width)), bytes.drop width)
  read_write value rest := by
    have length : (littleEndian width (toNat value)).length = width := length_littleEndian _ _
    rw [if_neg (by rw [List.length_append, length]; omega), List.take_left' length,
      List.drop_left' length, from_little_endian_of_fits (fits value), inverse]

def uint16 : SelfDelimiting UInt16 :=
  word 2 UInt16.toNat UInt16.ofNat (fun _ => UInt16.ofNat_toNat) fun value => value.toNat_lt

def uint32 : SelfDelimiting UInt32 :=
  word 4 UInt32.toNat UInt32.ofNat (fun _ => UInt32.ofNat_toNat) fun value => value.toNat_lt

def uint64 : SelfDelimiting UInt64 :=
  word 8 UInt64.toNat UInt64.ofNat (fun _ => UInt64.ofNat_toNat) fun value => value.toNat_lt

def pair (left : SelfDelimiting α) (right : SelfDelimiting β) : SelfDelimiting (α × β) where
  write value := left.write value.1 ++ right.write value.2
  read bytes :=
    match left.read bytes with
    | none => none
    | some (first, rest) =>
      match right.read rest with
      | none => none
      | some (second, rest) => some ((first, second), rest)
  read_write value rest := by
    rw [List.append_assoc, left.read_write]
    dsimp only
    rw [right.read_write]

def along (codec : SelfDelimiting α) (encode : β → α) (decode : α → β)
    (inverse : ∀ value, decode (encode value) = value) : SelfDelimiting β where
  write value := codec.write (encode value)
  read bytes := (codec.read bytes).map fun (value, rest) => (decode value, rest)
  read_write value rest := by
    rw [codec.read_write, Option.map_some]
    dsimp only
    rw [inverse]

section Each

variable (codec : SelfDelimiting α)

/-- A one before every element, and a zero at the end. -/
def writeEach : List α → Bytes
  | [] => [0]
  | value :: rest => 1 :: (codec.write value ++ writeEach rest)

/-- The fuel bounds the number of elements. -/
def readEach : Nat → Bytes → Option (List α × Bytes)
  | 0, _ => none
  | fuel + 1, bytes =>
    match bytes with
    | 0 :: rest => some ([], rest)
    | 1 :: rest =>
      match codec.read rest with
      | none => none
      | some (value, rest) =>
        (readEach fuel rest).map fun (values, rest) => (value :: values, rest)
    | _ => none

variable (values : List α)

theorem length_lt_writeEach : values.length < (writeEach codec values).length := by
  induction values with
  | nil => exact Nat.one_pos
  | cons value rest ih =>
    simp only [writeEach, List.length_cons, List.length_append]
    omega

theorem readEach_writeEach (rest : Bytes) {fuel : Nat} (enough : values.length < fuel) :
    readEach codec fuel (writeEach codec values ++ rest) = some (values, rest) := by
  induction values generalizing fuel with
  | nil =>
    obtain ⟨fuel, rfl⟩ := Nat.exists_eq_add_one.mpr enough
    rfl
  | cons value values ih =>
    rw [List.length_cons] at enough
    obtain ⟨fuel, rfl⟩ := Nat.exists_eq_add_one.mpr (Nat.zero_lt_of_lt enough)
    rw [writeEach, List.cons_append, List.append_assoc, readEach, codec.read_write]
    dsimp only
    rw [ih (by omega), Option.map_some]

def each : SelfDelimiting (List α) where
  write := writeEach codec
  read bytes := readEach codec bytes.length bytes
  read_write values rest := by
    apply readEach_writeEach
    have long := length_lt_writeEach codec values
    rw [List.length_append]
    omega

end Each

def bytes : SelfDelimiting Bytes := each byte

end SelfDelimiting

variable {ε α σ : Type}

/-- What was written is read back from the front of a stream. -/
def Reads (write : α → Bytes) (read : Bytes → Except ε (α × Bytes)) : Prop :=
  ∀ value rest, read (write value ++ rest) = .ok (value, rest)

/-- The loop of a decoder: each value that is read is added to what is built so far. -/
def readTimes (read : Bytes → Except ε (α × Bytes)) (add : σ → α → σ) :
    Nat → σ → Bytes → Except ε (σ × Bytes)
  | 0, built, bytes => .ok (built, bytes)
  | count + 1, built, bytes =>
    match read bytes with
    | .error err => .error err
    | .ok (value, rest) => readTimes read add count (add built value) rest

theorem readTimes_written {write : α → Bytes} {read : Bytes → Except ε (α × Bytes)}
    (reads : Reads write read) (add : σ → α → σ) (values : List α) (built : σ) (rest : Bytes) :
    readTimes read add values.length built (values.flatMap write ++ rest) =
      .ok (values.foldl add built, rest) := by
  induction values generalizing built with
  | nil => rfl
  | cons value values ih =>
    rw [List.flatMap_cons, List.append_assoc, List.length_cons, readTimes, reads]
    exact ih (add built value)

end Fleta
