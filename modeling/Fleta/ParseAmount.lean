import Fleta.Amount
import Fleta.Primitives
import Mathlib.Data.List.TakeWhile
import Mathlib.Tactic.Positivity
import Mathlib.Tactic.Ring

/-!
# Parsing amounts

`ParseAmount` splits a text at its first point, parses the whole part and the fraction,
padded to eighteen places, as 64-bit numbers and puts them together as 64-bit signed
numbers. It is compared with the amounts that decimal texts denote.
-/

namespace Fleta

open List

namespace Decimal

def isDigit (c : UInt8) : Bool := 48 ≤ c && c ≤ 57

def value (digits : Bytes) : Nat := digits.foldl (fun n c => 10 * n + (c.toNat - 48)) 0

theorem value_append (left right : Bytes) :
    value (left ++ right) = value left * 10 ^ right.length + value right := by
  suffices from_any : ∀ start : Nat, right.foldl (fun n c => 10 * n + (c.toNat - 48)) start =
        start * 10 ^ right.length + value right by
    rw [value, foldl_append]
    exact from_any _
  induction right with
  | nil => simp [value]
  | cons c rest ih =>
    intro start
    have first : value (c :: rest) = (c.toNat - 48) * 10 ^ rest.length + value rest := by
      rw [value, foldl_cons, ih, Nat.mul_zero, Nat.zero_add]
    rw [foldl_cons, ih, first, length_cons]
    ring

theorem value_zeros {zeros : Bytes} (all : ∀ c ∈ zeros, c = 48) : value zeros = 0 := by
  induction zeros with
  | nil => rfl
  | cons c rest ih =>
    have first : c = 48 := all c mem_cons_self
    have later : value rest = 0 := ih fun c listed => all c (mem_cons_of_mem _ listed)
    rw [← singleton_append, value_append, later, first]
    simp [value]

theorem value_lt {digits : Bytes} (all : digits.all isDigit) :
    value digits < 10 ^ digits.length := by
  induction digits with
  | nil => simp [value]
  | cons c rest ih =>
    rw [all_cons, Bool.and_eq_true] at all
    have later := ih all.2
    have digit : value [c] < 10 := by
      have small := all.1
      simp only [isDigit, Bool.and_eq_true, decide_eq_true_eq, UInt8.le_iff_toNat_le] at small
      simp only [value, foldl_cons, foldl_nil]
      have nine : (57 : UInt8).toNat = 57 := rfl
      omega
    rw [← singleton_append, value_append, length_append, length_singleton, Nat.pow_add, Nat.pow_one]
    calc value [c] * 10 ^ rest.length + value rest
        < value [c] * 10 ^ rest.length + 10 ^ rest.length := Nat.add_lt_add_left later _
      _ = (value [c] + 1) * 10 ^ rest.length := by ring
      _ ≤ 10 * 10 ^ rest.length := Nat.mul_le_mul_right _ digit

end Decimal

open Decimal

/-- `strconv.ParseUint` to the base ten and 64 bits. -/
def parseUint (str : Bytes) : Option UInt64 :=
  if str ≠ [] ∧ str.all isDigit ∧ value str < 2 ^ 64 then some (UInt64.ofNat (value str)) else none

/-- `strings.SplitN(str, ".", 2)`. -/
def splitPoint (str : Bytes) : List Bytes :=
  let whole := str.takeWhile (· != 46)
  match str.dropWhile (· != 46) with
  | [] => [whole]
  | _ :: fraction => [whole, fraction]

namespace Amount

structure Padding where
  pads : Bytes
  lastZero : Nat
  hasNonZero : Bool

/-- One round of its loop; writing behind the eighteenth place panics. -/
def Padding.round (st : Padding) (i : Nat) (b : UInt8) : Option Padding :=
  if i < st.pads.length then
    some
      { pads := st.pads.set i b
        lastZero := if !st.hasNonZero && b != 48 then i else st.lastZero
        hasNonZero := st.hasNonZero || b != 48 }
  else none

def Padding.loop : Bytes → Nat → Padding → Option Padding
  | [], _, st => some st
  | b :: rest, i, st => (st.round i b).bind (loop rest (i + 1))

def padFractional (str : Bytes) : Option Bytes :=
  (Padding.loop str 0 ⟨replicate 18 48, 0, false⟩).map fun st => st.pads.drop st.lastZero

def fractionalMax : Int := 1000000000000000000

def int64 (v : UInt64) : Int := v.toInt64.toInt

def newCoinAmount (i f : UInt64) : Int :=
  if i = 0 then int64 f
  else if f = 0 then int64 i * fractionalMax
  else int64 i * fractionalMax + int64 f

def parseAmount (str : Bytes) : Except Err Int :=
  match splitPoint str with
  | [whole] =>
    match parseUint whole with
    | none => .error .invalidAmountFormat
    | some pi => .ok (newCoinAmount pi 0)
  | [whole, fraction] =>
    match parseUint whole with
    | none => .error .invalidAmountFormat
    | some pi =>
      match padFractional fraction with
      | none => .error .panicked
      | some padded =>
        match parseUint padded with
        | none => .error .invalidAmountFormat
        | some pf => .ok (newCoinAmount pi pf)
  | _ => .error .invalidAmountFormat

/-- The decimal texts and the amounts they denote. -/
inductive Denotes : Bytes → Int → Prop
  | whole {digits : Bytes} (some : digits ≠ []) (all : digits.all isDigit)
      (fits : value digits < 2 ^ 64) : Denotes digits (value digits * 10 ^ 18)
  | point {digits fraction : Bytes} (some : digits ≠ []) (all : digits.all isDigit)
      (fits : value digits < 2 ^ 64) (somePlaces : fraction ≠ []) (places : fraction.length ≤ 18)
      (allPlaces : fraction.all isDigit) :
      Denotes (digits ++ 46 :: fraction)
        (value digits * 10 ^ 18 + value fraction * 10 ^ (18 - fraction.length))

/-- What a parser of amounts owes for a text. -/
structure Meets (str : Bytes) (result : Except Err Int) : Prop where
  exact : ∀ am, Denotes str am → result = .ok am
  refused : (¬∃ am, Denotes str am) → ∃ err, result = .error err
  safe : result ≠ .error .panicked
  nonneg : ∀ am, result = .ok am → 0 ≤ am

/-- After the bytes `written`, the pads hold them before zeros, and what will be cut off is
zeros. -/
structure Padding.Holds (st : Padding) (written : Bytes) : Prop where
  pads : st.pads = written ++ replicate (18 - written.length) 48
  short : written.length ≤ 18
  cut : ∀ c ∈ written.take st.lastZero, c = 48
  behind : st.lastZero ≤ written.length
  within : st.lastZero < 18
  zeros : st.hasNonZero = false → ∀ c ∈ written, c = 48

variable {st : Padding} {written : Bytes}

theorem Padding.Holds.round (holds : st.Holds written) (room : written.length < 18) (b : UInt8) :
    ∃ st', st.round written.length b = some st' ∧ st'.Holds (written ++ [b]) := by
  have size : st.pads.length = 18 := by
    rw [holds.pads, length_append, length_replicate]
    omega
  have length : (written ++ [b]).length = written.length + 1 := length_append
  refine ⟨_, if_pos (by omega), ⟨?_, by omega, ?_, ?_, ?_, ?_⟩⟩
  · have places : 18 - written.length = 18 - (written ++ [b]).length + 1 := by omega
    rw [holds.pads, set_append_right _ _ (le_refl _), Nat.sub_self, places,
      replicate_succ, set_cons_zero, append_assoc, singleton_append]
  · split
    · rename_i first
      rw [Bool.and_eq_true, Bool.not_eq_true'] at first
      rw [take_left]
      exact holds.zeros first.1
    · rw [take_append_of_le_length holds.behind]
      exact holds.cut
  · dsimp only
    split
    · omega
    · have behind := holds.behind
      omega
  · split
    · exact room
    · exact holds.within
  · intro none
    rw [Bool.or_eq_false_iff, bne_eq_false_iff_eq] at none
    exact forall_mem_concat (holds.zeros none.1) none.2

theorem Padding.Holds.loop {rest : Bytes}
    (holds : st.Holds written) (room : written.length + rest.length ≤ 18) :
    ∃ st', Padding.loop rest written.length st = some st' ∧ st'.Holds (written ++ rest) := by
  induction rest generalizing st written with
  | nil => exact ⟨st, rfl, by rwa [append_nil]⟩
  | cons b rest ih =>
    rw [length_cons] at room
    obtain ⟨next, rounded, holds'⟩ := holds.round (by omega) b
    have length : (written ++ [b]).length = written.length + 1 := length_append
    obtain ⟨last, looped, holds''⟩ := ih holds' (by omega)
    refine ⟨last, ?_, by rwa [append_assoc, singleton_append] at holds''⟩
    rw [Padding.loop, rounded, Option.bind_some, ← length, looped]

/-- More than eighteen places are written behind the end of the pads. -/
theorem Padding.loop_long {rest : Bytes} {i : Nat} (size : st.pads.length = 18)
    (start : i ≤ 18) (long : 18 < i + rest.length) : Padding.loop rest i st = none := by
  induction rest generalizing i st with
  | nil =>
    rw [length_nil] at long
    omega
  | cons b rest ih =>
    rw [length_cons] at long
    rw [Padding.loop, Padding.round]
    by_cases inside : i < st.pads.length
    · rw [if_pos inside, Option.bind_some]
      apply ih
      · rw [length_set, size]
      · omega
      · omega
    · rw [if_neg inside, Option.bind_none]

variable {str : Bytes}

theorem padFractional_long (long : 18 < str.length) : padFractional str = none := by
  rw [padFractional, Padding.loop_long length_replicate (by omega) (by omega), Option.map_none]

theorem padFractional_short (short : str.length ≤ 18) :
    ∃ cut, cut < 18 ∧ cut ≤ str.length ∧ (∀ c ∈ str.take cut, c = 48) ∧
      padFractional str =
        some ((str ++ replicate (18 - str.length) 48).drop cut) := by
  have start : Padding.Holds ⟨replicate 18 48, 0, false⟩ [] :=
    ⟨rfl, by decide, by simp, by simp, by decide, by simp⟩
  have room : ([] : Bytes).length + str.length ≤ 18 := by simpa using short
  obtain ⟨st, looped, holds⟩ := start.loop room
  refine ⟨st.lastZero, holds.within, holds.behind, holds.cut, ?_⟩
  rw [length_nil] at looped
  rw [padFractional, looped, Option.map_some, holds.pads, nil_append]

theorem all_isDigit_zeros {zeros : Bytes} (all : ∀ c ∈ zeros, c = 48) : zeros.all isDigit := by
  rw [all_eq_true]
  intro c listed
  rw [all c listed]
  rfl

theorem parseUint_padFractional (short : str.length ≤ 18) :
    ∃ padded, padFractional str = some padded ∧
      parseUint padded =
        if str.all isDigit then some (UInt64.ofNat (value str * 10 ^ (18 - str.length)))
        else none := by
  obtain ⟨cut, within, behind, zeros, padded⟩ := padFractional_short short
  refine ⟨_, padded, ?_⟩
  set tail := replicate (18 - str.length) (48 : UInt8) with tail_eq
  have tailLength : tail.length = 18 - str.length := by rw [tail_eq, length_replicate]
  have tailZeros : ∀ c ∈ tail, c = 48 := fun c listed => eq_of_mem_replicate listed
  have length : (str ++ tail).length = 18 := by
    rw [length_append, tailLength]
    omega
  have parts : str.take cut ++ (str ++ tail).drop cut = str ++ tail := by
    rw [← take_append_of_le_length behind, take_append_drop]
  have digits : ((str ++ tail).drop cut).all isDigit = str.all isDigit := by
    have whole := congrArg (all · isDigit) parts
    simpa [all_isDigit_zeros zeros, all_isDigit_zeros tailZeros] using whole
  have number : value ((str ++ tail).drop cut) = value str * 10 ^ (18 - str.length) := by
    have whole := congrArg value parts
    rw [value_append, value_zeros zeros, value_append, value_zeros tailZeros, tailLength] at whole
    omega
  have some : (str ++ tail).drop cut ≠ [] := by
    rw [Ne, drop_eq_nil_iff, length]
    omega
  unfold parseUint
  rw [digits, number]
  by_cases allDigits : str.all isDigit
  · have fits : value (str ++ tail) < 10 ^ 18 := by
      rw [← length]
      apply value_lt
      simp [allDigits, all_isDigit_zeros tailZeros]
    rw [value_append, value_zeros tailZeros, tailLength] at fits
    rw [if_pos ⟨some, allDigits, by omega⟩, if_pos allDigits]
  · rw [if_neg (fun all => allDigits all.2.1), if_neg allDigits]

theorem int64_of_lt {v : Nat} (fits : v < 2 ^ 64) :
    int64 (UInt64.ofNat v) = if v < 2 ^ 63 then (v : Int) else v - 2 ^ 64 := by
  have word : (UInt64.ofNat v).toBitVec.toNat = v := UInt64.toNat_ofNat_of_lt' fits
  change (UInt64.ofNat v).toBitVec.toInt = _
  rw [BitVec.toInt_eq_toNat_cond, word]
  split <;> split <;> omega

theorem newCoinAmount_eq (i f : UInt64) :
    newCoinAmount i f = int64 i * fractionalMax + int64 f := by
  unfold newCoinAmount
  split
  · rename_i zero
    rw [zero, show int64 0 = 0 from rfl, Int.zero_mul, Int.zero_add]
  · split
    · rename_i zero
      rw [zero, show int64 0 = 0 from rfl, Int.add_zero]
    · rfl

structure IsNumber (digits : Bytes) : Prop where
  some : digits ≠ []
  all : digits.all isDigit
  fits : value digits < 2 ^ 64

variable {digits : Bytes}

theorem parseUint_number (number : IsNumber digits) :
    parseUint digits = some (UInt64.ofNat (value digits)) :=
  if_pos ⟨number.some, number.all, number.fits⟩

theorem parseUint_other (other : ¬IsNumber str) : parseUint str = none :=
  if_neg fun parts => other ⟨parts.1, parts.2.1, parts.2.2⟩

theorem no_point (all : digits.all isDigit) : (46 : UInt8) ∉ digits := by
  intro listed
  exact absurd (all_eq_true.mp all 46 listed) (by decide)

theorem splitPoint_whole (none : (46 : UInt8) ∉ str) : splitPoint str = [str] := by
  have all := bne_of_not_mem none
  rw [splitPoint, takeWhile_eq_self_iff.mpr all, dropWhile_eq_nil_iff.mpr all]

variable {whole : Bytes}

theorem splitPoint_point (none : (46 : UInt8) ∉ whole) (fraction : Bytes) :
    splitPoint (whole ++ 46 :: fraction) = [whole, fraction] := by
  have all := bne_of_not_mem none
  simp [splitPoint, takeWhile_append_of_pos all, dropWhile_append_of_pos all]

theorem point_cases (str : Bytes) :
    (46 : UInt8) ∉ str ∨ ∃ whole fraction, str = whole ++ 46 :: fraction ∧ (46 : UInt8) ∉ whole := by
  by_cases listed : (46 : UInt8) ∈ str
  · obtain ⟨whole, fraction, split, none⟩ := eq_append_cons_of_mem listed
    exact .inr ⟨whole, fraction, split, none⟩
  · exact .inl listed

theorem denotes_whole (none : (46 : UInt8) ∉ str) {am : Int} :
    Denotes str am ↔ IsNumber str ∧ am = value str * 10 ^ 18 := by
  constructor
  · intro denotes
    cases denotes with
    | whole some all fits => exact ⟨⟨some, all, fits⟩, rfl⟩
    | point some all fits somePlaces places allPlaces => simp at none
  · rintro ⟨number, rfl⟩
    exact .whole number.some number.all number.fits

variable {fraction : Bytes}

theorem denotes_point (none : (46 : UInt8) ∉ whole) {am : Int} :
    Denotes (whole ++ 46 :: fraction) am ↔
      IsNumber whole ∧ (fraction ≠ [] ∧ fraction.length ≤ 18 ∧ fraction.all isDigit) ∧
        am = value whole * 10 ^ 18 + value fraction * 10 ^ (18 - fraction.length) := by
  constructor
  · intro denotes
    generalize text : whole ++ 46 :: fraction = str at denotes
    cases denotes with
    | whole some all fits =>
      rw [← text] at all
      exact absurd (no_point all) (by simp)
    | point some all fits somePlaces places allPlaces =>
      -- Both sides are cut at their first point.
      have parts := congrArg splitPoint text
      rw [splitPoint_point none, splitPoint_point (no_point all)] at parts
      obtain ⟨rfl, rfl⟩ : whole = _ ∧ fraction = _ := by simpa using parts
      exact ⟨⟨some, all, fits⟩, ⟨somePlaces, places, allPlaces⟩, rfl⟩
  · rintro ⟨number, places, rfl⟩
    exact .point number.some number.all number.fits places.1 places.2.1 places.2.2

/-- The texts that are parsed as specified: those whose whole part is no number, and those
with a whole part below 2^63, or a refused fraction, whose fraction has 1 to 18 bytes. -/
def Regular (str : Bytes) : Prop :=
  match splitPoint str with
  | [whole] => IsNumber whole → value whole < 2 ^ 63
  | [whole, fraction] => IsNumber whole → fraction ≠ [] ∧ fraction.length ≤ 18 ∧
      (value whole < 2 ^ 63 ∨ ¬fraction.all isDigit)
  | _ => False

theorem meets_error (other : ∀ am, ¬Denotes str am) : Meets str (.error .invalidAmountFormat) where
  exact am denotes := absurd denotes (other am)
  refused _ := ⟨_, rfl⟩
  safe := by simp
  nonneg am accepted := by cases accepted

theorem meets_ok_iff {am result : Int} (denotes : Denotes str am)
    (only : ∀ other, Denotes str other → other = am) (nonneg : 0 ≤ am) :
    Meets str (.ok result) ↔ result = am := by
  constructor
  · intro meets
    exact Except.ok.inj (meets.exact am denotes)
  · rintro rfl
    exact ⟨fun other same => by rw [only other same], fun none => absurd ⟨_, denotes⟩ none,
      by simp, fun am accepted => by rwa [← Except.ok.inj accepted]⟩

theorem newCoinAmount_eq_iff {whole fraction : Nat} (fits : whole < 2 ^ 64)
    (small : fraction < 10 ^ 18) :
    newCoinAmount (UInt64.ofNat whole) (UInt64.ofNat fraction) =
        (whole : Int) * 10 ^ 18 + fraction ↔ whole < 2 ^ 63 := by
  rw [newCoinAmount_eq, int64_of_lt fits, int64_of_lt (by omega), fractionalMax]
  split <;> split <;> omega

theorem value_shifted_lt (all : fraction.all isDigit)
    (short : fraction.length ≤ 18) : value fraction * 10 ^ (18 - fraction.length) < 10 ^ 18 := by
  calc value fraction * 10 ^ (18 - fraction.length)
      < 10 ^ fraction.length * 10 ^ (18 - fraction.length) :=
        Nat.mul_lt_mul_of_pos_right (value_lt all) (by positivity)
    _ = 10 ^ 18 := by rw [← Nat.pow_add, Nat.add_sub_cancel' short]

theorem parse_whole_meets_iff (none : (46 : UInt8) ∉ str) (number : IsNumber str) :
    Meets str (.ok (newCoinAmount (UInt64.ofNat (value str)) 0)) ↔ value str < 2 ^ 63 := by
  have denotes : Denotes str (value str * 10 ^ 18) := (denotes_whole none).mpr ⟨number, rfl⟩
  have only : ∀ other, Denotes str other → other = value str * 10 ^ 18 :=
    fun other same => ((denotes_whole none).mp same).2
  have read := newCoinAmount_eq_iff number.fits (by decide : 0 < 10 ^ 18)
  rw [Int.natCast_zero, Int.add_zero] at read
  rw [meets_ok_iff denotes only (by positivity)]
  exact read

theorem parse_point_meets_iff (none : (46 : UInt8) ∉ whole)
    (number : IsNumber whole) (some : fraction ≠ []) (short : fraction.length ≤ 18)
    (all : fraction.all isDigit) :
    Meets (whole ++ 46 :: fraction) (.ok (newCoinAmount (UInt64.ofNat (value whole))
          (UInt64.ofNat (value fraction * 10 ^ (18 - fraction.length))))) ↔
      value whole < 2 ^ 63 := by
  have denotes : Denotes (whole ++ 46 :: fraction)
      (value whole * 10 ^ 18 + value fraction * 10 ^ (18 - fraction.length)) :=
    (denotes_point none).mpr ⟨number, ⟨some, short, all⟩, rfl⟩
  have only : ∀ other, Denotes (whole ++ 46 :: fraction) other →
      other = value whole * 10 ^ 18 + value fraction * 10 ^ (18 - fraction.length) :=
    fun other same => ((denotes_point none).mp same).2.2
  have read := newCoinAmount_eq_iff number.fits (value_shifted_lt all short)
  rw [meets_ok_iff denotes only (by positivity)]
  exact read

theorem not_meets_panicked (str : Bytes) : ¬Meets str (.error .panicked) :=
  fun meets => meets.safe rfl

/-- `ParseAmount` does what its specification says exactly for the regular texts. -/
theorem parseAmount_meets_iff (str : Bytes) : Meets str (parseAmount str) ↔ Regular str := by
  rcases point_cases str with none | ⟨whole, fraction, rfl, none⟩
  · rw [Regular, parseAmount, splitPoint_whole none]
    dsimp only
    by_cases number : IsNumber str
    · rw [parseUint_number number]
      simp only [number, forall_const]
      exact parse_whole_meets_iff none number
    · rw [parseUint_other number]
      have other : ∀ am, ¬Denotes str am := fun am denotes => number ((denotes_whole none).mp denotes).1
      exact ⟨fun _ number' => absurd number' number, fun _ => meets_error other⟩
  · rw [Regular, parseAmount, splitPoint_point none]
    dsimp only
    by_cases number : IsNumber whole
    · rw [parseUint_number number]
      simp only [number, forall_const]
      by_cases short : fraction.length ≤ 18
      · obtain ⟨padded, pad, parsed⟩ := parseUint_padFractional short
        rw [pad]
        dsimp only
        rw [parsed]
        by_cases all : fraction.all isDigit
        · rw [if_pos all]
          by_cases some : fraction = []
          · have other : ¬∃ am, Denotes (whole ++ 46 :: fraction) am :=
              fun ⟨am, denotes⟩ => ((denotes_point none).mp denotes).2.1.1 some
            refine ⟨fun meets => ?_, fun regular => absurd some regular.1⟩
            obtain ⟨err, failed⟩ := meets.refused other
            cases failed
          · rw [parse_point_meets_iff none number some short all]
            simp [some, short, all]
        · rw [if_neg all]
          have other : ∀ am, ¬Denotes (whole ++ 46 :: fraction) am :=
            fun am denotes => all ((denotes_point none).mp denotes).2.1.2.2
          have some : fraction ≠ [] := by
            rintro rfl
            exact all rfl
          exact ⟨fun _ => ⟨some, short, .inr all⟩, fun _ => meets_error other⟩
      · rw [padFractional_long (by omega)]
        exact ⟨fun meets => absurd meets (not_meets_panicked _), fun regular => absurd regular.2.1 short⟩
    · rw [parseUint_other number]
      have other : ∀ am, ¬Denotes (whole ++ 46 :: fraction) am :=
        fun am denotes => number ((denotes_point none).mp denotes).1
      exact ⟨fun _ number' => absurd number' number, fun _ => meets_error other⟩

/-- Nineteen places panic, a point without places is accepted, and a whole part of 2^63 is
read as a negative number. -/
theorem parseAmount_irregular :
    (parseAmount [49, 46, 48, 48, 48, 48, 48, 48, 48, 48, 48, 48, 48, 48, 48, 48, 48, 48, 48, 48, 48] =
        .error .panicked) ∧
      parseAmount [49, 46] = .ok coin ∧
      parseAmount [57, 50, 50, 51, 51, 55, 50, 48, 51, 54, 56, 53, 52, 55, 55, 53, 56, 48, 56] =
        .ok (-9223372036854775808 * coin) ∧
      ¬∀ str, Meets str (parseAmount str) := by
  have panics : parseAmount [49, 46, 48, 48, 48, 48, 48, 48, 48, 48, 48, 48, 48, 48, 48, 48, 48, 48,
      48, 48, 48] = .error .panicked := by decide +kernel
  refine ⟨panics, by decide +kernel, by decide +kernel, fun meets => ?_⟩
  apply not_meets_panicked
  rw [← panics]
  exact meets _

end Amount

end Fleta
