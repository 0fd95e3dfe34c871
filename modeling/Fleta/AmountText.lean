import Fleta.ParseAmount
import Mathlib.Data.List.DropRight
import Mathlib.Data.Nat.Digits.Defs

/-!
# Texts of amounts

`Amount.String` writes the decimal digits of an amount, puts the point before the last
eighteen of them and drops the zeros at the end. Every text it writes denotes the amount,
and `ParseAmount` reads it back while the whole part fits in 63 bits.
-/

namespace Fleta

open List

namespace Decimal

def text (n : Nat) : Bytes := (Nat.digits 10 n).reverse.map fun d => UInt8.ofNat (48 + d)

theorem digit_toNat {d : Nat} (small : d < 10) : (UInt8.ofNat (48 + d)).toNat = 48 + d := by
  have fits : 48 + d < 2 ^ 8 := by omega
  exact UInt8.toNat_ofNat_of_lt' fits

theorem value_reverse_map {digits : List Nat} (small : ∀ d ∈ digits, d < 10) :
    value (digits.reverse.map fun d => UInt8.ofNat (48 + d)) = Nat.ofDigits 10 digits := by
  induction digits with
  | nil => rfl
  | cons d rest ih =>
    have later := ih fun d listed => small d (mem_cons_of_mem _ listed)
    have first : d < 10 := small d mem_cons_self
    have digit : value [UInt8.ofNat (48 + d)] = d := by
      rw [value, foldl_cons, foldl_nil, digit_toNat first]
      omega
    rw [reverse_cons, map_append, map_singleton, value_append, later, digit,
      length_singleton, Nat.ofDigits_cons]
    ring

theorem value_text (n : Nat) : value (text n) = n := by
  have small : ∀ d ∈ Nat.digits 10 n, d < 10 := fun d listed => Nat.digits_lt_base (by decide) listed
  rw [text, value_reverse_map small, Nat.ofDigits_digits]

theorem text_all_isDigit (n : Nat) : (text n).all isDigit := by
  rw [all_eq_true]
  intro c listed
  obtain ⟨d, member, rfl⟩ := mem_map.mp listed
  have small : d < 10 := Nat.digits_lt_base (by decide) (mem_reverse.mp member)
  have nine : (57 : UInt8).toNat = 57 := rfl
  have zero : (48 : UInt8).toNat = 48 := rfl
  simp only [isDigit, Bool.and_eq_true, decide_eq_true_eq, UInt8.le_iff_toNat_le, digit_toNat small]
  omega

end Decimal

open Decimal

namespace Amount

/-- `Int.String` of the big integers. -/
def bigIntString (v : Int) : Bytes :=
  if v = 0 then [48] else if v < 0 then 45 :: text v.natAbs else text v.natAbs

def fractionalCount : Nat := 18

/-- `strings.TrimRight(str, "0")`. -/
def trimRight (str : Bytes) : Bytes := str.rdropWhile (· == 48)

structure Formatting where
  pads : Bytes
  lastZero : Nat
  hasNonZero : Bool

/-- One round of its loop: the digits are copied from the front, and the last one that is
not zero is looked for from the end. -/
def Formatting.round (str : Bytes) (diff : Nat) (st : Formatting) (i : Nat) : Formatting :=
  let b := str.getD (str.length - i - 1) 0
  { pads := st.pads.set (diff + i) (str.getD i 0)
    lastZero := if !st.hasNonZero && b != 48 then diff + str.length - i - 1 + 1 else st.lastZero
    hasNonZero := st.hasNonZero || b != 48 }

/-- More digits than pads are written before the first pad, which panics. -/
def formatFractional (str : Bytes) : Option Bytes :=
  if str.length ≤ 18 then
    let st := (range str.length).foldl (Formatting.round str (18 - str.length))
      ⟨replicate 18 48, 0, false⟩
    some (st.pads.take st.lastZero)
  else none

def string (am : Int) : Option Bytes :=
  if am = 0 then some [48]
  else
    let str := bigIntString am
    if str.length ≤ fractionalCount then
      (formatFractional str).map fun sf => [48, 46] ++ sf
    else
      let si := str.take (str.length - fractionalCount)
      let sf := trimRight (str.drop (str.length - fractionalCount))
      some (if sf.length > 0 then si ++ [46] ++ sf else si)

/-- The decimal texts of any length and the amounts they write. -/
inductive Writes : Bytes → Nat → Prop
  | whole {digits : Bytes} (some : digits ≠ []) (all : digits.all isDigit) :
      Writes digits (value digits * 10 ^ 18)
  | point {digits fraction : Bytes} (some : digits ≠ []) (all : digits.all isDigit)
      (places : fraction.length ≤ 18) (allPlaces : fraction.all isDigit) :
      Writes (digits ++ 46 :: fraction)
        (value digits * 10 ^ 18 + value fraction * 10 ^ (18 - fraction.length))

structure Formatting.Holds (str : Bytes) (diff : Nat) (st : Formatting) (i : Nat) : Prop where
  pads : st.pads =
    replicate diff 48 ++ (str.take i ++ replicate (str.length - i) 48)
  zeros : st.hasNonZero = false → ∀ c ∈ str.drop (str.length - i), c = 48
  found : st.hasNonZero = true →
    ∃ last, last ≤ str.length ∧ st.lastZero = diff + last ∧ ∀ c ∈ str.drop last, c = 48

variable {str : Bytes} {st : Formatting}

theorem Formatting.Holds.round {diff : Nat} {i : Nat}
    (holds : st.Holds str diff i) (inside : i < str.length) :
    (st.round str diff i).Holds str diff (i + 1) := by
  have next : str[i]? = some (str.getD i 0) := by simp [inside]
  have tail : str.drop (str.length - i - 1) =
      str.getD (str.length - i - 1) 0 :: str.drop (str.length - i) := by
    have place : str.length - i - 1 < str.length := by omega
    have after : str.length - i - 1 + 1 = str.length - i := by omega
    rw [drop_eq_getElem_cons place, after]
    simp [place]
  have front : str.length - (i + 1) = str.length - i - 1 := by omega
  constructor
  · have room : str.length - i = str.length - (i + 1) + 1 := by omega
    have copied : (str.take i).length = i := by
      rw [length_take]
      omega
    have index : diff + i - diff - i = 0 := by omega
    dsimp only [Formatting.round]
    rw [holds.pads, set_append_right _ _ (by simp), length_replicate,
      set_append_right _ _ (by omega), copied, index, room, replicate_succ,
      set_cons_zero, take_add_one, next, Option.toList_some, append_assoc,
      singleton_append]
  · intro none c listed
    dsimp only [Formatting.round] at none
    rw [Bool.or_eq_false_iff, bne_eq_false_iff_eq] at none
    rw [front, tail, mem_cons] at listed
    rcases listed with rfl | later
    · exact none.2
    · exact holds.zeros none.1 c later
  · intro some
    dsimp only [Formatting.round] at some ⊢
    by_cases before : st.hasNonZero
    · obtain ⟨last, within, cut, zeros⟩ := holds.found before
      exact ⟨last, within, by simpa [before] using cut, zeros⟩
    · rw [Bool.not_eq_true] at before
      rw [before, Bool.false_or] at some
      refine ⟨str.length - i, by omega, ?_, holds.zeros before⟩
      rw [before, Bool.not_false, Bool.true_and, if_pos some]
      omega

theorem Formatting.holds_rounds (str : Bytes) (rounds : Nat) (inside : rounds ≤ str.length)
    (short : str.length ≤ 18) :
    Formatting.Holds str (18 - str.length)
      ((range rounds).foldl (Formatting.round str (18 - str.length))
        ⟨replicate 18 48, 0, false⟩) rounds := by
  induction rounds with
  | zero =>
    refine ⟨?_, by simp, by simp⟩
    have places : 18 - str.length + (str.length - 0) = 18 := by omega
    rw [range_zero, foldl_nil, take_zero, nil_append, replicate_append_replicate, places]
  | succ rounds ih =>
    rw [range_succ, foldl_append, foldl_cons, foldl_nil]
    exact (ih (by omega)).round (by omega)

theorem Formatting.Holds.cut {diff : Nat}
    (holds : st.Holds str diff str.length) (nonzero : value str ≠ 0) :
    ∃ last, last ≤ str.length ∧ (∀ c ∈ str.drop last, c = 48) ∧
      st.pads.take st.lastZero = replicate diff 48 ++ str.take last := by
  have some : st.hasNonZero = true := by
    by_contra none
    rw [Bool.not_eq_true] at none
    have zeros := holds.zeros none
    rw [Nat.sub_self, drop_zero] at zeros
    exact nonzero (value_zeros zeros)
  obtain ⟨last, within, cut, zeros⟩ := holds.found some
  refine ⟨last, within, zeros, ?_⟩
  have length : (replicate diff (48 : UInt8)).length = diff := length_replicate
  rw [holds.pads, cut, Nat.sub_self, replicate_zero, append_nil, take_length]
  nth_rewrite 1 [← length]
  rw [take_length_add_append]

theorem formatFractional_eq (short : str.length ≤ 18) (nonzero : value str ≠ 0) :
    ∃ last, last ≤ str.length ∧ (∀ c ∈ str.drop last, c = 48) ∧
      formatFractional str =
        some (replicate (18 - str.length) 48 ++ str.take last) := by
  have holds := Formatting.holds_rounds str str.length (le_refl _) short
  obtain ⟨last, within, zeros, cut⟩ := holds.cut nonzero
  refine ⟨last, within, zeros, ?_⟩
  rw [formatFractional, if_pos short]
  dsimp only
  rw [cut]

theorem value_drop_zeros {kept zeros : Bytes} (all : ∀ c ∈ zeros, c = 48)
    (places : (kept ++ zeros).length = 18) :
    value kept * 10 ^ (18 - kept.length) = value (kept ++ zeros) := by
  rw [length_append] at places
  have length : zeros.length = 18 - kept.length := by omega
  rw [value_append, value_zeros all, length, Nat.add_zero]

theorem trimRight_append (str : Bytes) :
    ∃ zeros, (∀ c ∈ zeros, c = 48) ∧ trimRight str ++ zeros = str := by
  refine ⟨str.rtakeWhile (· == 48), ?_, rdropWhile_append_rtakeWhile⟩
  intro c listed
  have zero : (c == 48) = true := mem_rtakeWhile_imp (p := (· == 48)) listed
  exact eq_of_beq zero

theorem writes_fraction (all : str.all isDigit) (short : str.length ≤ 18)
    (nonzero : value str ≠ 0) :
    ∃ sf, formatFractional str = some sf ∧ Writes ([48, 46] ++ sf) (value str) := by
  obtain ⟨last, within, zeros, formatted⟩ := formatFractional_eq short nonzero
  refine ⟨_, formatted, ?_⟩
  set front := replicate (18 - str.length) (48 : UInt8) with front_eq
  have frontZeros : ∀ c ∈ front, c = 48 := fun c listed => eq_of_mem_replicate listed
  have parts : front ++ str.take last ++ str.drop last = front ++ str := by
    rw [append_assoc, take_append_drop]
  have places : (front ++ str.take last ++ str.drop last).length = 18 := by
    rw [parts, length_append, front_eq, length_replicate]
    omega
  have short' : (front ++ str.take last).length ≤ 18 := by
    rw [length_append] at places
    omega
  have digits : (front ++ str.take last).all isDigit := by
    rw [all_append, all_isDigit_zeros frontZeros, Bool.true_and, all_eq_true]
    intro c listed
    exact all_eq_true.mp all c (mem_of_mem_take listed)
  have amount : value (front ++ str.take last) * 10 ^ (18 - (front ++ str.take last).length) =
      value str := by
    rw [value_drop_zeros zeros places, parts, value_append, value_zeros frontZeros, Nat.zero_mul,
      Nat.zero_add]
  have writes := Writes.point (by simp : [(48 : UInt8)] ≠ []) rfl short' digits
  rw [amount, show value [48] = 0 from rfl, Nat.zero_mul, Nat.zero_add] at writes
  exact writes

theorem writes_whole (all : str.all isDigit) (long : 18 < str.length) :
    Writes
      (if (trimRight (str.drop (str.length - 18))).length > 0 then
        str.take (str.length - 18) ++ [46] ++ trimRight (str.drop (str.length - 18))
      else str.take (str.length - 18))
      (value str) := by
  set si := str.take (str.length - 18) with si_eq
  set places := str.drop (str.length - 18) with places_eq
  have parts : si ++ places = str := take_append_drop _ _
  have eighteen : places.length = 18 := by
    rw [places_eq, length_drop]
    omega
  have some : si ≠ [] := by
    rw [Ne, ← length_eq_zero_iff, si_eq, length_take]
    omega
  have digits : si.all isDigit ∧ places.all isDigit := by
    rw [← parts, all_append, Bool.and_eq_true] at all
    exact all
  have number : value str = value si * 10 ^ 18 + value places := by
    rw [← parts, value_append, eighteen]
  obtain ⟨zeros, allZeros, trimmed⟩ := trimRight_append places
  have amount := value_drop_zeros allZeros (trimmed ▸ eighteen)
  rw [trimmed] at amount
  have digits' : (trimRight places).all isDigit := by
    have both := digits.2
    rw [← trimmed, all_append, Bool.and_eq_true] at both
    exact both.1
  have short : (trimRight places).length ≤ 18 := by
    have both := eighteen
    rw [← trimmed, length_append] at both
    omega
  split
  · have writes := Writes.point some digits.1 short digits'
    rw [amount, ← number] at writes
    rwa [append_assoc, singleton_append]
  · have none : trimRight places = [] := by
      rw [← length_eq_zero_iff]
      omega
    have zero : value places = 0 := by
      rw [← amount, none]
      exact Nat.zero_mul _
    rw [number, zero, Nat.add_zero]
    exact .whole some digits.1

/-- Every amount that is not negative has a text, and the text writes the amount. -/
theorem string_writes (n : Nat) : ∃ str, string n = some str ∧ Writes str n := by
  by_cases zero : n = 0
  · subst zero
    refine ⟨[48], rfl, ?_⟩
    exact .whole (by simp : [(48 : UInt8)] ≠ []) rfl
  · have nonzero : (n : Int) ≠ 0 := by omega
    have positive : ¬(n : Int) < 0 := by omega
    have digits : bigIntString n = text n := by
      rw [bigIntString, if_neg nonzero, if_neg positive, Int.natAbs_natCast]
    rw [string, if_neg nonzero, digits]
    rw [fractionalCount]
    by_cases short : (text n).length ≤ 18
    · have some : value (text n) ≠ 0 := by rwa [value_text]
      obtain ⟨sf, formatted, writes⟩ := writes_fraction (text_all_isDigit n) short some
      rw [value_text] at writes
      rw [if_pos short, formatted, Option.map_some]
      exact ⟨_, rfl, writes⟩
    · have writes := writes_whole (text_all_isDigit n) (by omega)
      rw [value_text] at writes
      rw [if_neg short]
      exact ⟨_, rfl, writes⟩

/-- The amount that is read from the parts of a text. -/
def written (str : Bytes) : Nat :=
  match splitPoint str with
  | [whole, fraction] => value whole * 10 ^ 18 + value fraction * 10 ^ (18 - fraction.length)
  | _ => value str * 10 ^ 18

theorem Writes.written_eq {n : Nat} (writes : Writes str n) : written str = n := by
  cases writes with
  | whole some all => rw [written, splitPoint_whole (no_point all)]
  | point some all places allPlaces => rw [written, splitPoint_point (no_point all)]

theorem Writes.parseAmount_eq {n : Nat} (writes : Writes str n)
    (fits : n / 10 ^ 18 < 2 ^ 63) : parseAmount str = .ok n := by
  cases writes with
  | whole some all =>
    rw [Nat.mul_div_cancel _ (by decide)] at fits
    have number : IsNumber str := ⟨some, all, by omega⟩
    have read := (newCoinAmount_eq_iff number.fits (by decide : 0 < 10 ^ 18)).mpr fits
    rw [parseAmount, splitPoint_whole (no_point all)]
    dsimp only
    rw [parseUint_number number]
    dsimp only
    rw [show (0 : UInt64) = UInt64.ofNat 0 from rfl, read]
    simp
  | @point digits fraction some all places allPlaces =>
    have small := value_shifted_lt allPlaces places
    have whole : (value digits * 10 ^ 18 + value fraction * 10 ^ (18 - fraction.length)) / 10 ^ 18 =
        value digits := by omega
    rw [whole] at fits
    have number : IsNumber digits := ⟨some, all, by omega⟩
    obtain ⟨padded, pad, parsed⟩ := parseUint_padFractional places
    have read := (newCoinAmount_eq_iff number.fits small).mpr fits
    rw [parseAmount, splitPoint_point (no_point all)]
    dsimp only
    rw [parseUint_number number, pad]
    dsimp only
    rw [parsed, if_pos allPlaces]
    dsimp only
    rw [read]
    simp

/-- A text of an amount is read back as the amount while its whole part is below 2^63, and no
two amounts that are not negative have the same text. -/
theorem string_roundTrip :
    (∀ am : Int, 0 ≤ am → am / coin < 2 ^ 63 →
      ∃ str, string am = some str ∧ parseAmount str = .ok am) ∧
    ∀ am am' : Int, 0 ≤ am → 0 ≤ am' → string am = string am' → am = am' := by
  constructor
  · intro am nonneg fits
    obtain ⟨n, rfl⟩ := Int.eq_ofNat_of_zero_le nonneg
    obtain ⟨str, printed, writes⟩ := string_writes n
    refine ⟨str, printed, writes.parseAmount_eq ?_⟩
    rw [coin] at fits
    omega
  · intro am am' nonneg nonneg' same
    obtain ⟨n, rfl⟩ := Int.eq_ofNat_of_zero_le nonneg
    obtain ⟨n', rfl⟩ := Int.eq_ofNat_of_zero_le nonneg'
    obtain ⟨str, printed, writes⟩ := string_writes n
    obtain ⟨str', printed', writes'⟩ := string_writes n'
    rw [printed, printed'] at same
    obtain rfl : str = str' := Option.some.inj same
    rw [← writes.written_eq, ← writes'.written_eq]

/-- The text of one coin and a half. -/
theorem string_one_and_half :
    string (coin + coin / 2) = some [49, 46, 53] ∧
      ∃ str, string (coin + coin / 2) = some str ∧ parseAmount str = .ok (coin + coin / 2) :=
  ⟨by decide +kernel, string_roundTrip.1 (coin + coin / 2) (by decide) (by decide)⟩

end Amount

end Fleta
