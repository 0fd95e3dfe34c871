import Fleta.ByteOrder
import Fleta.SortedMap

/-!
# Addresses, hashes, keys and errors

Addresses are the 14-byte arrays of `common.Address`, ordered by their bytes.
Hashes, signatures and public hashes are byte strings whose length is left open, so
that a hash function without collisions can be assumed without contradiction. Only
the score of a rank reads inside one.
-/

namespace Fleta

open ByteOrder

@[simp] theorem ok_bind {ε α β : Type} (value : α) (next : α → Except ε β) :
    (Except.ok value >>= next) = next value := rfl

theorem forall_mem_concat {Item : Type} {P : Item → Prop} {items : List Item} {last : Item}
    (all : ∀ item ∈ items, P item) (new : P last) : ∀ item ∈ items ++ [last], P item :=
  List.forall_mem_append.mpr ⟨all, List.forall_mem_singleton.mpr new⟩

theorem bne_of_not_mem {byte : UInt8} {bytes : List UInt8} (none : byte ∉ bytes) :
    ∀ other ∈ bytes, (other != byte) = true := by
  intro other listed
  rw [bne_iff_ne]
  rintro rfl
  exact none listed

theorem forall₂_right {Item Result : Type} {R : Item → Result → Prop} {items : List Item}
    {results : List Result} (all : List.Forall₂ R items results) :
    ∀ result ∈ results, ∃ item ∈ items, R item result := by
  induction all with
  | nil => simp
  | cons first _ ih =>
    intro result listed
    rcases List.mem_cons.mp listed with same | later
    · exact ⟨_, List.mem_cons_self, same ▸ first⟩
    · obtain ⟨item, carried, related⟩ := ih result later
      exact ⟨item, List.mem_cons_of_mem _ carried, related⟩

theorem mapM_eq_ok {ε Item Result : Type} {f : Item → Except ε Result} {items : List Item}
    {results : List Result} :
    items.mapM f = .ok results ↔
      List.Forall₂ (fun item result => f item = .ok result) items results := by
  induction items generalizing results with
  | nil => cases results <;> simp [pure, Except.pure]
  | cons item items ih =>
    rw [List.mapM_cons, List.forall₂_cons_left_iff]
    cases head : f item with
    | error err => simp [bind, Except.bind]
    | ok first =>
      cases tail : items.mapM f with
      | error err =>
        have none : ∀ rest, ¬List.Forall₂ (fun item result => f item = .ok result) items rest := by
          intro rest all
          rw [← ih, tail] at all
          cases all
        simp [bind, Except.bind, none]
      | ok rest =>
        have only : ∀ other, List.Forall₂ (fun item result => f item = .ok result) items other ↔
            rest = other := by
          intro other
          rw [← ih, tail, Except.ok.injEq]
        simp [bind, Except.bind, pure, Except.pure, only, eq_comm]

abbrev Hash256 := Bytes

def zeroHash : Hash256 := List.replicate 32 0

abbrev Signature := Bytes

abbrev PublicHash := Bytes

/-- `copy` of a byte string into a zeroed array of the given size. -/
def copyInto (size : Nat) (bytes : Bytes) : Bytes :=
  bytes.take size ++ List.replicate (size - bytes.length) 0

@[simp] theorem length_copyInto (size : Nat) (bytes : Bytes) :
    (copyInto size bytes).length = size := by
  simp only [copyInto, List.length_append, List.length_take, List.length_replicate]
  omega

class Base58 where
  encode : Bytes → Bytes
  decode : Bytes → Option Bytes

/-- The error values the modelled functions return. -/
inductive Err where
  -- common
  | invalidAddressFormat
  | invalidAddressCheckSum
  | invalidBase58
  | invalidSignature
  | invalidPublicHash
  | insufficientSignature
  | duplicatedSignature
  -- core/types
  | invalidAccountType
  | existAccount
  | existAccountName
  | notExistAccount
  | deletedAccount
  | notExistProcess
  | existUTXO
  | notExistUTXO
  | usedUTXO
  | invalidTransactionCount
  | notAllowedEmptyAddressAccount
  | notAllowedAddressAccountName
  | invalidAddressHeight
  | invalidSignerCount
  | invalidAccountSigner
  | dustAmount
  | invalidTransactionIDFormat
  | usedTimeSlot
  | invalidTransactionTimeSlot
  -- core/chain
  | invalidChainID
  | invalidVersion
  | invalidHeight
  | invalidPrevHash
  | invalidContextHash
  | invalidLevelRootHash
  | invalidTimestamp
  | invalidGenerator
  | exceedHashCount
  | invalidHashCount
  | storeClosed
  | dirtyContext
  | invalidTxInKey
  | invalidAccountName
  | foundForkedBlock
  | cannotDeleteGeneratorAccount
  | alreadyGenesised
  | invalidGenesisHash
  -- core/backend
  | notExistKey
  -- core/pile
  | invalidChunkBeginHeight
  | invalidChunkEndHeight
  | invalidAppendHeight
  | invalidPileHeight
  | invalidFileSize
  | invalidDataIndex
  | missingPile
  | alreadyInitialized
  | exceedMaximumDataArrayLength
  | heightCrashed
  -- os, io
  | endOfFile
  | fileTooLarge
  | invalidSeek
  -- pof
  | insufficientCandidateCount
  | exceedCandidateCount
  | invalidObserverKey
  | invalidMaxBlocksPerFormulator
  | invalidTopAddress
  | invalidTopSignature
  | invalidSignatureCount
  | invalidPhase
  | existAddress
  | foundForkedBlockGen
  | invalidVote
  | invalidRoundState
  | invalidRequest
  | alreadyVoted
  -- core/txpool
  | existTransaction
  -- process/admin, process/gateway
  | unauthorizedTransaction
  | processedOutTXID
  -- process/payment
  | invalidTopicName
  | notExistTopic
  | existSubscribe
  | notExistSubscribe
  | exceedContentSize
  | invalidBillingAmount
  -- process/vault
  | invalidMultiKeyHashCount
  | invalidRequiredKeyHashCount
  | minusInput
  | minusBalance
  | minusCollectedFee
  | insufficientFee
  | insufficientBalance
  -- process/formulator
  | invalidStakingAddress
  | invalidStakingAmount
  | minusStakingAmount
  | minusUnstakingAmount
  | criticalStakingAmount
  | insufficientStakingAmount
  | notRevoked
  | notExistRevokedFormulator
  | notExistUnstakingAmount
  | revokedFormulator
  | invalidFormulatorAddress
  | invalidFormulatorCount
  | insufficientFormulatorBlocks
  | insufficientFormulatorRewardCount
  | sigmaCreationNotAllowed
  | omegaCreationNotAllowed
  | invalidValidatorPolicy
  | notHyperFormulator
  -- common/amount, encoding/hex
  | invalidAmountFormat
  | invalidHexByte
  -- service/p2p
  | unknownMessage
  -- a runtime panic, which stops the node
  | panicked
  -- an error raised by a transaction or a hook, known only by its text
  | other (text : Bytes)
deriving DecidableEq

def addressSize : Nat := 14

structure Address where
  bytes : Bytes
  size : bytes.length = addressSize
deriving DecidableEq

namespace Address

instance : Ord Address := ⟨fun left right => compare left.bytes right.bytes⟩

theorem eq_of_bytes_eq {left right : Address} (same : left.bytes = right.bytes) : left = right := by
  cases left
  cases right
  simp_all

instance : Std.TransOrd Address where
  eq_swap := Std.OrientedOrd.eq_swap (α := Bytes)
  isLE_trans := Std.TransOrd.isLE_trans (α := Bytes)

instance : Std.LawfulEqOrd Address where
  compare_self := Std.ReflOrd.compare_self (α := Bytes)
  eq_of_compare {_ _} same := eq_of_bytes_eq (Std.LawfulEqOrd.eq_of_compare (α := Bytes) same)

/-- `NewAddress`: block height, transaction index and magic, each big-endian. -/
def new (height : UInt32) (index : UInt16) (magic : UInt64) : Address where
  bytes := bigEndian 4 height.toNat ++ bigEndian 2 index.toNat ++ bigEndian 8 magic.toNat
  size := by simp [addressSize]

def height (addr : Address) : UInt32 := UInt32.ofNat (fromBigEndian (addr.bytes.take 4))

def zero : Address where
  bytes := List.replicate addressSize 0
  size := by simp

instance : Inhabited Address := ⟨zero⟩

def checksum (addr : Address) : UInt8 := addr.bytes.foldl (· ^^^ ·) 0

def splitSymbol (str : Bytes) : Bytes × Bytes :=
  match str.span (· != 95) with
  | (_, []) => ([], str)
  | (symbol, _ :: text) => (symbol, text)

/-- The bytes 8 to 13 of an address with a symbol: the symbol masked with the
two base bytes, or the bare mask when both base bytes are zero. -/
def maskSymbol (symbol : Bytes) (first second : UInt8) : Bytes :=
  let text := if first ≠ 0 ∨ second ≠ 0 then copyInto 6 symbol else List.replicate 6 0
  List.zipWith (· ^^^ ·) text [first, second, first, second, first, second]

@[simp] theorem length_maskSymbol (symbol : Bytes) (first second : UInt8) :
    (maskSymbol symbol first second).length = 6 := by
  unfold maskSymbol
  split <;> simp

def parse [Base58] (str : Bytes) : Except Err Address :=
  let (symbol, text) := splitSymbol str
  match Base58.decode text with
  | none => .error .invalidBase58
  | some bs =>
    if bs.length ≠ (if symbol.length > 0 then 9 else 7) then .error .invalidAddressFormat
    else
      let tail :=
        if symbol.length > 0 then
          bs.drop 7 ++ maskSymbol symbol (bs.getD 7 0) (bs.getD 8 0)
        else []
      let addr : Address := ⟨copyInto addressSize ((bs.drop 1).take 6 ++ tail), by simp⟩
      if bs.getD 0 0 ≠ addr.checksum then .error .invalidAddressCheckSum else .ok addr

end Address

/-- `string(pid)` of a process id is the UTF-8 encoding of the code point. -/
def pidString (pid : UInt8) : Bytes :=
  if pid < 128 then [pid] else [pid / 64 ||| 0xC0, pid % 64 ||| 0x80]

private def splitPid : Bytes → UInt8 × Bytes
  | [] => (0, [])
  | [byte] => (byte, [])
  | byte :: next :: rest =>
    if byte < 128 then (byte, next :: rest) else ((byte &&& 3) * 64 + (next &&& 63), rest)

private theorem two_byte_pid : ∀ code : Fin 256, ¬UInt8.ofFin code < 128 →
    ¬(UInt8.ofFin code / 64 ||| 0xC0) < 128 ∧
      ((UInt8.ofFin code / 64 ||| 0xC0) &&& 3) * 64 + ((UInt8.ofFin code % 64 ||| 0x80) &&& 63) =
        UInt8.ofFin code := by
  decide +kernel

private theorem splitPid_pidString (pid : UInt8) (name : Bytes) :
    splitPid (pidString pid ++ name) = (pid, name) := by
  by_cases short : pid < 128
  · cases name <;> simp [pidString, splitPid, short]
  · obtain ⟨long, decoded⟩ := two_byte_pid pid.toFin short
    rw [UInt8.ofFin_toFin] at long decoded
    rw [pidString, if_neg short]
    simp only [List.cons_append, List.nil_append, splitPid]
    rw [if_neg long, decoded]

variable {leftPid rightPid : UInt8} {leftName rightName : Bytes}

theorem pid_string_append_injective
    (same : pidString leftPid ++ leftName = pidString rightPid ++ rightName) :
    leftPid = rightPid ∧ leftName = rightName := by
  have split := congrArg splitPid same
  rw [splitPid_pidString, splitPid_pidString] at split
  exact Prod.mk.inj split

/-- `string(addr[:]) + string(pid) + string(name)`. -/
def accountDataKey (addr : Address) (pid : UInt8) (name : Bytes) : Bytes :=
  addr.bytes ++ pidString pid ++ name

/-- `string(pid) + string(name)`. -/
def processDataKey (pid : UInt8) (name : Bytes) : Bytes := pidString pid ++ name

theorem account_data_key_injective {leftAddr rightAddr : Address}
    (same : accountDataKey leftAddr leftPid leftName = accountDataKey rightAddr rightPid rightName) :
    leftAddr = rightAddr ∧ leftPid = rightPid ∧ leftName = rightName := by
  simp only [accountDataKey, List.append_assoc] at same
  obtain ⟨addrSame, tailSame⟩ := List.append_inj same (by rw [leftAddr.size, rightAddr.size])
  exact ⟨Address.eq_of_bytes_eq addrSame, pid_string_append_injective tailSame⟩

theorem process_data_key_injective
    (same : processDataKey leftPid leftName = processDataKey rightPid rightName) :
    leftPid = rightPid ∧ leftName = rightName :=
  pid_string_append_injective same

def second : UInt64 := 1000000000

def toTimeSlot (timestamp : UInt64) : UInt32 := (timestamp / (5 * second)).toUInt32

end Fleta
