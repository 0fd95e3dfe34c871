import Fleta.Gateway
import Fleta.TransferCodec
import Mathlib.Data.List.DropRight
import Mathlib.Data.List.GetD

/-!
# Texts of addresses

`Address.String` writes the first bytes of an address and its checksum in base58, behind the
symbol of the chain when the magic number masks one. The symbol is not in the base58 text:
the parser masks it again.
-/

namespace Fleta

open ByteOrder Address List

/-- Base58 texts are read back, and its alphabet has no underscore. -/
class LawfulBase58 [Base58] : Prop where
  decode_encode : ∀ bytes, Base58.decode (Base58.encode bytes) = some bytes
  no_underscore : ∀ bytes, (95 : UInt8) ∉ Base58.encode bytes

namespace Address

/-- `bytes.TrimRight` of zero bytes. -/
def trimZeros (bytes : Bytes) : Bytes := bytes.rdropWhile (· == 0)

def unmaskSymbol (tbs : Bytes) (first second : UInt8) : Bytes :=
  zipWith (· ^^^ ·) tbs [first, second, first, second, first, second]

def string [Base58] (addr : Address) : Bytes :=
  let result := trimZeros addr.bytes
  let bs := addr.checksum :: copyInto (if result.length < 7 then 6 else 14) result
  let first := addr.bytes.getD 6 0
  let second := addr.bytes.getD 7 0
  if first = 0 ∧ second = 0 then Base58.encode bs
  else
    let tbs := unmaskSymbol (addr.bytes.drop 8) first second
    tbs.takeWhile (· != 0) ++ [95] ++ Base58.encode (bs.take 9)

theorem trimZeros_append (bytes : Bytes) :
    ∃ zeros, (∀ byte ∈ zeros, byte = 0) ∧ trimZeros bytes ++ zeros = bytes := by
  refine ⟨bytes.rtakeWhile (· == 0), ?_, rdropWhile_append_rtakeWhile⟩
  intro byte listed
  have zero : (byte == 0) = true := mem_rtakeWhile_imp (p := (· == 0)) listed
  exact eq_of_beq zero

theorem copyInto_trimZeros {size : Nat} {bytes : Bytes} (fits : (trimZeros bytes).length ≤ size)
    (room : size ≤ bytes.length) : copyInto size (trimZeros bytes) = bytes.take size := by
  obtain ⟨zeros, all, parts⟩ := trimZeros_append bytes
  have length := congrArg length parts
  rw [length_append] at length
  have same : zeros = replicate zeros.length 0 := eq_replicate_iff.mpr ⟨rfl, all⟩
  have taken : zeros.take (size - (trimZeros bytes).length) =
      replicate (size - (trimZeros bytes).length) 0 := by
    rw [same, take_replicate]
    congr 1
    omega
  conv_rhs => rw [← parts]
  rw [copyInto, take_append, taken]

theorem getD_trimmed {bytes : Bytes} {i : Nat} (behind : (trimZeros bytes).length ≤ i) :
    bytes.getD i 0 = 0 := by
  obtain ⟨zeros, all, parts⟩ := trimZeros_append bytes
  rw [← parts, getD_append_right _ _ _ _ behind]
  by_cases inside : i - (trimZeros bytes).length < zeros.length
  · rw [getD_eq_getElem _ _ inside]
    exact all _ (getElem_mem inside)
  · exact getD_eq_default _ _ (by omega)

variable {symbol : Bytes}

theorem unmaskSymbol_maskSymbol {first second : UInt8} (masked : ¬(first = 0 ∧ second = 0)) :
    unmaskSymbol (maskSymbol symbol first second) first second = copyInto 6 symbol := by
  have some : first ≠ 0 ∨ second ≠ 0 := by
    by_contra none
    push Not at none
    exact masked none
  have cancel : ∀ byte mask : UInt8, byte ^^^ mask ^^^ mask = byte := by
    intro byte mask
    rw [UInt8.xor_assoc, UInt8.xor_self, UInt8.xor_zero]
  obtain ⟨a, b, c, d, e, f, text⟩ : ∃ a b c d e f, copyInto 6 symbol = [a, b, c, d, e, f] := by
    have length := length_copyInto 6 symbol
    generalize copyInto 6 symbol = text at length
    match text, length with
    | [a, b, c, d, e, f], _ => exact ⟨a, b, c, d, e, f, rfl⟩
  simp [unmaskSymbol, maskSymbol, some, text, cancel]

theorem splitSymbol_plain {text : Bytes} (none : (95 : UInt8) ∉ text) :
    splitSymbol text = ([], text) := by
  have all := bne_of_not_mem none
  rw [splitSymbol, span_eq_takeWhile_dropWhile, dropWhile_eq_nil_iff.mpr all]

theorem splitSymbol_symbol (none : (95 : UInt8) ∉ symbol) (text : Bytes) :
    splitSymbol (symbol ++ [95] ++ text) = (symbol, text) := by
  have all := bne_of_not_mem none
  simp [splitSymbol, span_eq_takeWhile_dropWhile, takeWhile_append_of_pos all,
    dropWhile_append_of_pos all]

/-- The bytes of an address whose magic number masks a symbol: six bytes of its own, the two
base bytes and the masked symbol. -/
structure Masks (addr : Address) (symbol : Bytes) (first second : UInt8) : Prop where
  bytes : addr.bytes =
    addr.bytes.take 6 ++ ([first, second] ++ maskSymbol symbol first second)
  short : symbol.length ≤ 6
  some : 0 < symbol.length
  nonzero : (0 : UInt8) ∉ symbol
  noUnderscore : (95 : UInt8) ∉ symbol

variable {addr : Address} {symbol : Bytes} {first second : UInt8}

theorem length_front (addr : Address) : (addr.bytes.take 6).length = 6 := by
  rw [length_take, addr.size]
  rfl

section

variable (masks : addr.Masks symbol first second)

include masks

theorem Masks.getD_six : addr.bytes.getD 6 0 = first := by
  rw [masks.bytes, getD_append_right _ _ _ _ (by rw [length_front]), length_front]
  rfl

theorem Masks.getD_seven : addr.bytes.getD 7 0 = second := by
  rw [masks.bytes, getD_append_right _ _ _ _ (by rw [length_front]; decide), length_front]
  rfl

theorem Masks.drop_eight : addr.bytes.drop 8 = maskSymbol symbol first second := by
  have front := length_front addr
  rw [masks.bytes, ← append_assoc, drop_left' (by simp [front])]

theorem Masks.take_eight : addr.bytes.take 8 = addr.bytes.take 6 ++ [first, second] := by
  have front := length_front addr
  conv_lhs => rw [masks.bytes, ← append_assoc]
  rw [take_left' (by simp [front])]

theorem Masks.take_symbol : (copyInto 6 symbol).takeWhile (· != 0) = symbol := by
  have all : ∀ c ∈ symbol, (c != 0) = true := by
    intro c listed
    rw [bne_iff_ne]
    rintro rfl
    exact masks.nonzero listed
  rw [copyInto, take_of_length_le masks.short, takeWhile_append_of_pos all]
  cases 6 - symbol.length with
  | zero => simp
  | succ zeros => simp [replicate_succ]

end

variable [Base58]

theorem Masks.string_eq (masks : addr.Masks symbol first second)
    (masked : ¬(first = 0 ∧ second = 0)) :
    addr.string = symbol ++ [95] ++
      Base58.encode (addr.checksum :: (addr.bytes.take 6 ++ [first, second])) := by
  have long : ¬(trimZeros addr.bytes).length < 7 := by
    intro short
    apply masked
    rw [← masks.getD_six, ← masks.getD_seven]
    exact ⟨getD_trimmed (by omega), getD_trimmed (by omega)⟩
  have whole : copyInto 14 (trimZeros addr.bytes) = addr.bytes := by
    have fits : (trimZeros addr.bytes).length ≤ 14 := by
      have prefixed := (List.rdropWhile_prefix (· == 0) addr.bytes).length_le
      rw [addr.size] at prefixed
      exact prefixed
    rw [copyInto_trimZeros fits (by rw [addr.size]; exact le_refl _),
      take_of_length_le (by rw [addr.size]; exact le_refl _)]
  rw [string]
  dsimp only
  rw [masks.getD_six, masks.getD_seven, if_neg masked, if_neg long, whole, masks.drop_eight,
    unmaskSymbol_maskSymbol masked, masks.take_symbol, take_succ_cons, masks.take_eight]

theorem Masks.string_plain (masks : addr.Masks symbol 0 0) :
    addr.string = Base58.encode (addr.checksum :: addr.bytes.take 6) := by
  have zeros : [0, 0] ++ maskSymbol symbol 0 0 = replicate 8 0 := rfl
  have short : (trimZeros addr.bytes).length ≤ 6 := by
    have trimmed : trimZeros addr.bytes = trimZeros (addr.bytes.take 6) := by
      conv_lhs => rw [masks.bytes, zeros]
      rw [trimZeros, rdropWhile, reverse_append, dropWhile_append_of_pos (by simp)]
      rfl
    have prefixed := (List.rdropWhile_prefix (· == 0) (addr.bytes.take 6)).length_le
    rw [length_front] at prefixed
    rw [trimmed]
    exact prefixed
  rw [string]
  rw [masks.getD_six, masks.getD_seven, if_pos ⟨rfl, rfl⟩, if_pos (by omega),
    copyInto_trimZeros short (by rw [addr.size]; decide)]

theorem parse_eq_ok {str text bs : Bytes} (split : splitSymbol str = (symbol, text))
    (decoded : Base58.decode text = some bs)
    (length : bs.length = if symbol.length > 0 then 9 else 7)
    (bytes : copyInto addressSize ((bs.drop 1).take 6 ++
      if symbol.length > 0 then bs.drop 7 ++ maskSymbol symbol (bs.getD 7 0) (bs.getD 8 0)
      else []) = addr.bytes)
    (checked : bs.getD 0 0 = addr.checksum) : parse str = .ok addr := by
  have same : (⟨_, length_copyInto _ _⟩ : Address) = addr := eq_of_bytes_eq bytes
  have right : ¬bs.length ≠ if symbol.length > 0 then 9 else 7 := not_not.mpr length
  rw [parse, split]
  dsimp only
  rw [decoded]
  dsimp only
  rw [if_neg right, same, if_neg (not_not.mpr checked)]

variable [LawfulBase58]

theorem Masks.parse_string (masks : addr.Masks symbol first second) :
    parse addr.string = .ok addr := by
  have front := length_front addr
  by_cases masked : first = 0 ∧ second = 0
  · obtain ⟨rfl, rfl⟩ := masked
    rw [masks.string_plain]
    apply parse_eq_ok (splitSymbol_plain (LawfulBase58.no_underscore _))
      (LawfulBase58.decode_encode _)
    · simp [front]
    · conv_rhs => rw [masks.bytes]
      have own : ((addr.checksum :: addr.bytes.take 6).drop 1).take 6 = addr.bytes.take 6 := by
        rw [drop_succ_cons, drop_zero, take_take, Nat.min_self]
      rw [own, length_nil, if_neg (by decide), append_nil, copyInto, front,
        take_of_length_le (by rw [front]; decide)]
      rfl
    · rfl
  · rw [masks.string_eq masked]
    apply parse_eq_ok (splitSymbol_symbol masks.noUnderscore _) (LawfulBase58.decode_encode _)
    · rw [if_pos masks.some]
      simp [front]
    · have own : ((addr.checksum :: (addr.bytes.take 6 ++ [first, second])).drop 1).take 6 =
          addr.bytes.take 6 := by
        rw [drop_succ_cons, drop_zero, take_left' front]
      have base : (addr.checksum :: (addr.bytes.take 6 ++ [first, second])).drop 7 =
          [first, second] := by
        rw [drop_succ_cons, drop_left' front]
      have seventh : (addr.checksum :: (addr.bytes.take 6 ++ [first, second])).getD 7 0 = first := by
        rw [getD_cons_succ, getD_append_right _ _ _ _ (by rw [front]), front]
        rfl
      have eighth : (addr.checksum :: (addr.bytes.take 6 ++ [first, second])).getD 8 0 = second := by
        rw [getD_cons_succ, getD_append_right _ _ _ _ (by rw [front]; decide), front]
        rfl
      rw [if_pos masks.some, own, base, seventh, eighth, ← masks.bytes, copyInto, addr.size,
        take_of_length_le (by rw [addr.size])]
      simp
    · rfl

end Address

namespace Store

theorem isCapitalAndNumber_range {symbol : Bytes} (capital : isCapitalAndNumber symbol)
    {c : UInt8} (listed : c ∈ symbol) : 48 ≤ c ∧ c ≤ 90 := by
  have allowed := all_eq_true.mp capital c listed
  simp only [Bool.not_eq_true', Bool.and_eq_false_iff, Bool.or_eq_false_iff,
    decide_eq_false_iff_not, UInt8.not_lt] at allowed
  rcases allowed with digit | letter
  · exact ⟨digit.1, UInt8.le_trans digit.2 (by decide)⟩
  · exact ⟨UInt8.le_trans (by decide) letter.1, letter.2⟩

theorem fromBigEndian_lt (bytes : Bytes) : fromBigEndian bytes < 256 ^ bytes.length := by
  rw [fromBigEndian, ← length_reverse]
  exact from_little_endian_lt _

theorem masks_new [HashFunction] {symbol usage : Bytes} {magic : UInt64}
    (allowed : magicNumber symbol usage = some magic) (height : UInt32) (index : UInt16) :
    (new height index magic).Masks symbol (magicBase symbol usage).1
      (magicBase symbol usage).2 := by
  unfold magicNumber at allowed
  split at allowed
  · cases allowed
  rename_i symbolAllowed
  split at allowed
  · cases allowed
  push Not at symbolAllowed
  have capital : isCapitalAndNumber symbol := by simpa using symbolAllowed.2.2
  rcases base : magicBase symbol usage with ⟨first, second⟩
  rw [base] at allowed
  have number : UInt64.ofNat
      (fromBigEndian ([first, second] ++ maskSymbol symbol first second)) = magic :=
    Option.some.inj allowed
  have eight : ([first, second] ++ maskSymbol symbol first second).length = 8 := by simp
  have fits := fromBigEndian_lt ([first, second] ++ maskSymbol symbol first second)
  have written := big_endian_from_big_endian ([first, second] ++ maskSymbol symbol first second)
  rw [eight] at fits written
  have value : magic.toNat = fromBigEndian ([first, second] ++ maskSymbol symbol first second) := by
    rw [← number]
    exact UInt64.toNat_ofNat_of_lt' fits
  have front : (new height index magic).bytes.take 6 =
      bigEndian 4 height.toNat ++ bigEndian 2 index.toNat := by
    rw [new, take_left' (by simp)]
  refine ⟨?_, by omega, by omega, ?_, ?_⟩
  · rw [front, ← written, ← value]
    rfl
  · intro listed
    exact absurd (isCapitalAndNumber_range capital listed).1 (by decide)
  · intro listed
    exact absurd (isCapitalAndNumber_range capital listed).2 (by decide)

/-- The text of every address of a chain is read back as the address, and different addresses
of chains have different texts. -/
theorem address_string_roundTrip [HashFunction] [Base58] [LawfulBase58] :
    (∀ (symbol usage : Bytes) (magic : UInt64) (height : UInt32) (index : UInt16),
      magicNumber symbol usage = some magic →
        parse (new height index magic).string =
          .ok (new height index magic)) ∧
    ∀ (symbol usage symbol' usage' : Bytes) (magic magic' : UInt64) (height height' : UInt32)
      (index index' : UInt16), magicNumber symbol usage = some magic →
        magicNumber symbol' usage' = some magic' →
        (new height index magic).string = (new height' index' magic').string →
        new height index magic = new height' index' magic' := by
  constructor
  · intro symbol usage magic height index allowed
    exact (masks_new allowed height index).parse_string
  · intro symbol usage symbol' usage' magic magic' height height' index index' allowed allowed' same
    have read := (masks_new allowed height index).parse_string
    have read' := (masks_new allowed' height' index').parse_string
    rw [same, read'] at read
    exact (Except.ok.inj read).symm

end Store

namespace AddressInstances

scoped instance : Base58 where
  encode := hexEncode
  decode bytes := (hexDecode bytes).toOption

scoped instance : LawfulBase58 where
  decode_encode bytes := by
    change (hexDecode (hexEncode bytes)).toOption = some bytes
    rw [hexDecode_hexEncode]
    rfl
  no_underscore bytes listed := by
    obtain ⟨byte, _, digit⟩ := mem_flatMap.mp listed
    obtain ⟨high, low, first, second, _⟩ := fromHexChar_hexDigit byte
    have underscore : fromHexChar 95 = none := rfl
    rcases mem_cons.mp digit with same | later
    · rw [← same, underscore] at first
      cases first
    · rw [← mem_singleton.mp later, underscore] at second
      cases second

scoped instance : HashFunction where
  hash bytes := if bytes.take 4 = ascii "NOMA" then [243, 133] else []

/-- Two addresses of one chain, and one of a chain without a mask. -/
theorem address_string_read :
    parse (new 7 1 0xF385B5C9B6D1B285).string =
        .ok (new 7 1 0xF385B5C9B6D1B285) ∧
      parse (new 7 1 0).string = .ok (new 7 1 0) ∧
      ((new 7 1 0xF385B5C9B6D1B285).string =
          (new 7 2 0xF385B5C9B6D1B285).string →
        new 7 1 0xF385B5C9B6D1B285 = new 7 2 0xF385B5C9B6D1B285) := by
  have masked : Store.magicNumber (ascii "FLETA") (ascii "Testnet") = some 0xF385B5C9B6D1B285 := by
    decide +kernel
  have plain : Store.magicNumber (ascii "NOMA") (ascii "Testnet") = some 0 := by decide +kernel
  exact ⟨Store.address_string_roundTrip.1 _ _ _ 7 1 masked,
    Store.address_string_roundTrip.1 _ _ _ 7 1 plain,
    Store.address_string_roundTrip.2 _ _ _ _ _ _ 7 7 1 2 masked masked⟩

end AddressInstances

end Fleta
