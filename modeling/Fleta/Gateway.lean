import Fleta.MultiAccount

/-!
# Leaving through the gateway

A `TokenOut` is named by its height and its index in the block; the admin of the gateway
answers it with a `TokenLeave` that carries this name as a text of twelve hexadecimal
digits. A name that was answered is recorded under its text, while only the digits are
checked: upper and lower case digits name the same transaction and are recorded apart.
-/

namespace Fleta

open ByteOrder

variable {Acc Ev : Type}

def fromHexChar (c : UInt8) : Option UInt8 :=
  if 48 ≤ c ∧ c ≤ 57 then some (c - 48)
  else if 97 ≤ c ∧ c ≤ 102 then some (c - 97 + 10)
  else if 65 ≤ c ∧ c ≤ 70 then some (c - 65 + 10)
  else none

def hexDecode : Bytes → Except Err Bytes
  | [] => .ok []
  | [_] => .error .invalidHexByte
  | high :: low :: rest =>
    match fromHexChar high, fromHexChar low with
    | some high, some low => (hexDecode rest).map fun bytes => (high <<< 4 ||| low) :: bytes
    | _, _ => .error .invalidHexByte

def hexDigit (nibble : UInt8) : UInt8 := if nibble < 10 then 48 + nibble else 97 + (nibble - 10)

def hexEncode (bytes : Bytes) : Bytes :=
  bytes.flatMap fun byte : UInt8 => [hexDigit (byte >>> 4), hexDigit (byte &&& 15)]

def transactionID (height : UInt32) (index : UInt16) : Bytes :=
  hexEncode (bigEndian 4 height.toNat ++ bigEndian 2 index.toNat)

def parseTransactionID (txid : Bytes) : Except Err (UInt32 × UInt16) :=
  if txid.length ≠ 12 then .error .invalidTransactionIDFormat
  else
    (hexDecode txid).map fun bytes =>
      (UInt32.ofNat (fromBigEndian (bytes.take 4)),
        UInt16.ofNat (fromBigEndian ((bytes.drop 4).take 2)))

def toOutTXIDKey (txid : Bytes) : Bytes := [1, 1] ++ txid

variable {left right : Bytes}

@[simp] theorem toOutTXIDKey_inj : toOutTXIDKey left = toOutTXIDKey right ↔ left = right := by
  simp [toOutTXIDKey]

namespace Gateway

open Script

def hasOutTXID (p : Client) (txid : Bytes) : Script Acc Ev Bool := do
  let bs ← processData p.pid (toOutTXIDKey txid)
  return decide (bs.length > 0)

def setOutTXID (p : Client) (txid : Bytes) : Script Acc Ev Unit :=
  setProcessData p.pid (toOutTXIDKey txid) [1]

end Gateway

structure TokenOut where
  sender : Address
  amount : Int

structure TokenLeave where
  sender : Address
  coinTXID : Bytes
  amount : Int

section Transactions

variable [SignedAccount Acc]

open Script

def validateSigners (sender : Address) (signers : List PublicHash) : Script Acc Ev Unit := do
  let fromAcc ← check (← account sender)
  check (SignedAccount.validate fromAcc signers)

def TokenOut.validate [PolicyCodec] (p : Client) (signers : List PublicHash) (tx : TokenOut) :
    Script Acc Ev Unit := do
  if tx.amount < Amount.coin / 10 then fail .dustAmount
  else
    let adminAddress ← p.vault.adminAddress gatewayName
    let has ← check (← hasAccount adminAddress)
    if !has then fail .notExistAccount
    else
      validateSigners tx.sender signers
      let bs ← processData p.pid gatewayTagPolicy
      let withdrawFee ← check (PolicyCodec.unmarshal bs)
      check (← p.vault.checkFeePayableWith tx.sender (some (tx.amount + Amount.ofBytes withdrawFee)))

def TokenOut.run [PolicyCodec] [VaultAccounts Acc] (p : Client) (signers : List PublicHash)
    (index : UInt16) (tx : TokenOut) : Script Acc Ev Unit := do
  tx.validate p signers
  (CoinTx.tokenOut tx.sender tx.amount).execute p index

def TokenLeave.validate (p : Client) (signers : List PublicHash) (tx : TokenLeave) :
    Script Acc Ev Unit := do
  let adminAddress ← p.vault.adminAddress gatewayName
  if tx.sender ≠ adminAddress then fail .unauthorizedTransaction
  else if tx.amount < Amount.coin / 10 then fail .dustAmount
  else
    let _ ← check (parseTransactionID tx.coinTXID)
    if ← Gateway.hasOutTXID p tx.coinTXID then fail .processedOutTXID
    else validateSigners tx.sender signers

def TokenLeave.run (p : Client) (signers : List PublicHash) (tx : TokenLeave) :
    Script Acc Ev Unit := do
  tx.validate p signers
  Gateway.setOutTXID p tx.coinTXID

end Transactions

theorem fromHexChar_hexDigit (byte : UInt8) :
    ∃ high low, fromHexChar (hexDigit (byte >>> 4)) = some high ∧
      fromHexChar (hexDigit (byte &&& 15)) = some low ∧ high <<< 4 ||| low = byte := by
  have each : ∀ n < 256, fromHexChar (hexDigit (UInt8.ofNat n >>> 4)) = some (UInt8.ofNat n >>> 4) ∧
        fromHexChar (hexDigit (UInt8.ofNat n &&& 15)) = some (UInt8.ofNat n &&& 15) ∧
        (UInt8.ofNat n >>> 4) <<< 4 ||| (UInt8.ofNat n &&& 15) = UInt8.ofNat n := by
    decide +kernel
  have mine := each byte.toNat byte.toNat_lt
  rw [UInt8.ofNat_toNat] at mine
  exact ⟨_, _, mine⟩

variable (bytes : Bytes)

theorem hexDecode_hexEncode : hexDecode (hexEncode bytes) = .ok bytes := by
  induction bytes with
  | nil => rfl
  | cons byte rest ih =>
    obtain ⟨high, low, first, second, whole⟩ := fromHexChar_hexDigit byte
    change hexDecode (_ :: _ :: hexEncode rest) = _
    rw [hexDecode, first, second, ih]
    dsimp only [Except.map]
    rw [whole]

theorem length_hexEncode : (hexEncode bytes).length = 2 * bytes.length := by
  induction bytes with
  | nil => rfl
  | cons byte rest ih =>
    change (_ :: _ :: hexEncode rest).length = _
    simp only [List.length_cons, ih]
    omega

theorem parse_transactionID (height : UInt32) (index : UInt16) :
    parseTransactionID (transactionID height index) = .ok (height, index) := by
  have length : (transactionID height index).length = 12 := by
    simp [transactionID, length_hexEncode]
  have first : (bigEndian 4 height.toNat ++ bigEndian 2 index.toNat).take 4 =
      bigEndian 4 height.toNat := List.take_left' (length_bigEndian _ _)
  have second : ((bigEndian 4 height.toNat ++ bigEndian 2 index.toNat).drop 4).take 2 =
      bigEndian 2 index.toNat := by
    rw [List.drop_left' (length_bigEndian _ _), List.take_of_length_le (by simp)]
  rw [parseTransactionID, if_neg (not_not.mpr length), transactionID, hexDecode_hexEncode]
  simp only [Except.map, first, second]
  rw [from_big_endian_of_fits height.toNat_lt, from_big_endian_of_fits index.toNat_lt,
    UInt32.ofNat_toNat, UInt16.ofNat_toNat]

theorem eq_of_parse_eq (leftForm : ∃ height index, left = transactionID height index)
    (rightForm : ∃ height index, right = transactionID height index)
    (same : parseTransactionID left = parseTransactionID right) : left = right := by
  obtain ⟨height, index, rfl⟩ := leftForm
  obtain ⟨height', index', rfl⟩ := rightForm
  rw [parse_transactionID, parse_transactionID] at same
  obtain ⟨rfl, rfl⟩ := Prod.mk.inj (Except.ok.inj same)
  rfl

section Run

variable [Account Acc] [Event Ev] [Base58] [SignedAccount Acc] [VaultAccounts Acc] [PolicyCodec]

open Script

namespace Gateway

def OutKey (p : Client) (pid : UInt8) (name : Bytes) : Prop :=
  pid = p.pid ∧ ∃ txid, name = toOutTXIDKey txid

/-- A run of the gateway, with the `TokenLeave` transactions that succeeded in it. Whatever
else happens on the chain leaves the records alone. -/
inductive Run (p : Client) (start : World Acc Ev) : List TokenLeave → World Acc Ev → Prop
  | start : Run p start [] start
  | tokenOut {leaves : List TokenLeave} {w w' : World Acc Ev} (run : Run p start leaves w)
      (tx : TokenOut) (signers : List PublicHash) (index : UInt16)
      (done : w.transact (tx.run p signers index) = some w') : Run p start leaves w'
  | tokenLeave {leaves : List TokenLeave} {w w' : World Acc Ev} (run : Run p start leaves w)
      (tx : TokenLeave) (signers : List PublicHash)
      (done : w.transact (tx.run p signers) = some w') : Run p start (leaves ++ [tx]) w'
  | nextBlock {leaves : List TokenLeave} {w : World Acc Ev} (run : Run p start leaves w)
      (env : Env) : Run p start leaves (w.nextBlock env)
  | other {leaves : List TokenLeave} {w w' : World Acc Ev} (run : Run p start leaves w)
      (untouched : w.Untouched (OutKey p) w') : Run p start leaves w'

end Gateway

variable {p : Client} {join : World Acc Ev → World Acc Ev → World Acc Ev}

omit [SignedAccount Acc] [VaultAccounts Acc] [PolicyCodec] in
theorem Vault.adminAddress_asks (v : Vault)
    (name : Bytes) : (v.adminAddress name : Script Acc Ev Address).Asks join fun _ => True := by
  apply (Asks.processData _ _).later
  intro bs
  split
  · exact .fail _
  · exact .pure _

omit [VaultAccounts Acc] [PolicyCodec] in
theorem validateSigners_asks (sender : Address) (signers : List PublicHash) :
    (validateSigners sender signers : Script Acc Ev Unit).Asks join fun _ => True := by
  apply (Asks.account sender).later
  intro found
  apply (Asks.check found).later
  intro fromAcc
  exact .check _

variable (signers : List PublicHash)

omit [VaultAccounts Acc] in
theorem TokenOut.validate_does {rel : World Acc Ev → World Acc Ev → Prop} [Std.Refl rel]
    [IsTrans _ rel] (tx : TokenOut) :
    (tx.validate p signers : Script Acc Ev Unit).Does join rel := by
  unfold TokenOut.validate
  split
  · exact .fail _
  apply (Does.of_asks (p.vault.adminAddress_asks gatewayName)).bind
  intro adminAddress
  apply (Does.hasAccount adminAddress).bind
  intro found
  apply (Does.check found).bind
  intro has
  split
  · exact .fail _
  apply (Does.of_asks (validateSigners_asks tx.sender signers)).bind
  intro _
  apply (Does.processData _ _).bind
  intro bs
  apply (Does.check _).bind
  intro withdrawFee
  exact (Does.of_asks (p.vault.checkFeePayableWith_asks _ _ _)).bind .check

theorem TokenOut.run_untouched (index : UInt16) (tx : TokenOut) :
    (tx.run p signers index : Script Acc Ev Unit).Does World.commit
      (World.Untouched (Gateway.OutKey p)) := by
  have balance : ∀ (addr : Address) (w : World Acc Ev) (am : Int),
      w.Untouched (Gateway.OutKey p) (w.setBalance p.vault addr am) :=
    fun addr w am => .setAccountData _ _ _ _
  have fee : ∀ (w : World Acc Ev) (am : Int),
      w.Untouched (Gateway.OutKey p) (w.setCollectedFee p.vault am) := by
    intro w am
    apply World.Untouched.setProcessData
    rintro ⟨_, txid, same⟩
    simp [Vault.tagCollectedFee, toOutTXIDKey] at same
  apply (tx.validate_does signers).bind
  intro _
  apply Vault.withFee_does (fun w => IsTrans.trans _ _ _ (balance _ w _) (fee _ _))
    (fun w inner => World.Untouched.commit)
  apply (Does.processData _ _).bind
  intro bs
  apply (Does.check _).bind
  intro withdrawFee
  apply (Vault.subBalance_does (balance _) _).bind
  intro _
  apply (Vault.subBalance_does (balance _) _).bind
  intro _
  apply (Does.of_asks (p.vault.adminAddress_asks gatewayName)).bind
  intro admin
  apply (Vault.addBalance_does (balance _) _).bind
  intro _
  exact Vault.addBalance_does (balance _) _

section

omit [VaultAccounts Acc] [PolicyCodec]

theorem TokenLeave.validate_asks (signers : List PublicHash) (tx : TokenLeave) :
    (tx.validate p signers : Script Acc Ev Unit).Asks join
      fun w => w.processData p.pid (toOutTXIDKey tx.coinTXID) = [] := by
  apply (p.vault.adminAddress_asks gatewayName).later
  intro adminAddress
  split
  · exact .fail _
  split
  · exact .fail _
  apply (Asks.check _).later
  intro _ w w' next done
  simp only [Gateway.hasOutTXID, bind_apply, exec_processData, pure_apply] at done
  split at done
  · cases done
  · rename_i fresh
    have rest := validateSigners_asks tx.sender signers w w' next done
    exact ⟨by simpa using fresh, rest.2⟩

theorem TokenLeave.run_records {signers : List PublicHash} {tx : TokenLeave} {w w' : World Acc Ev}
    (done : (tx.run p signers).toProg.exec World.commit w = (.ok (), w')) :
    w.processData p.pid (toOutTXIDKey tx.coinTXID) = [] ∧
      w.setProcessData p.pid (toOutTXIDKey tx.coinTXID) [1] = w' := by
  obtain ⟨fresh, _, executed⟩ := tx.validate_asks signers w w' _ done
  exact ⟨fresh, (Prod.mk.inj executed).2⟩

end

namespace Gateway

/-- The answered transactions are recorded, and no record was emptied in the block. -/
structure Recorded (p : Client) (leaves : List TokenLeave) (w : World Acc Ev) : Prop where
  unmarked : ∀ txid, w.emptiedProcess p.pid (toOutTXIDKey txid) = false
  recorded : ∀ tx ∈ leaves, w.processData p.pid (toOutTXIDKey tx.coinTXID) ≠ []

variable {leaves : List TokenLeave} {w : World Acc Ev} {w' : World Acc Ev}

omit [Account Acc] [Event Ev] [Base58] [SignedAccount Acc] [VaultAccounts Acc] [PolicyCodec] in
theorem Recorded.untouched
    (recorded : Recorded p leaves w) (untouched : w.Untouched (OutKey p) w') :
    Recorded p leaves w' := by
  have same := fun txid => untouched p.pid (toOutTXIDKey txid) ⟨rfl, txid, rfl⟩
    (recorded.unmarked txid)
  refine ⟨fun txid => (same txid).1, fun tx listed => ?_⟩
  rw [(same tx.coinTXID).2]
  exact recorded.recorded tx listed

omit [VaultAccounts Acc] [PolicyCodec] in
theorem Recorded.leave
    (recorded : Recorded p leaves w) {tx : TokenLeave} {signers : List PublicHash}
    (done : w.transact (tx.run p signers) = some w') :
    w.processData p.pid (toOutTXIDKey tx.coinTXID) = [] ∧ Recorded p (leaves ++ [tx]) w' := by
  obtain ⟨inner, ran, rfl⟩ := World.transact_eq_some.mp done
  obtain ⟨fresh, rfl⟩ := TokenLeave.run_records ran
  have data : ∀ txid, (w.commit (w.snapshot.setProcessData p.pid (toOutTXIDKey tx.coinTXID) [1])).processData
      p.pid (toOutTXIDKey txid) =
        if txid = tx.coinTXID then [1] else w.processData p.pid (toOutTXIDKey txid) := by
    intro txid
    simp [World.commit, World.setProcessData, World.snapshot, recorded.unmarked]
  refine ⟨fresh, fun txid => ?_, fun earlier listed => ?_⟩
  · simp [World.commit, World.setProcessData, World.snapshot, recorded.unmarked]
  · rw [data]
    split
    · simp
    · rename_i other
      rcases List.mem_append.mp listed with before | last
      · exact recorded.recorded earlier before
      · rw [List.mem_singleton.mp last] at other
        exact absurd rfl other

theorem Run.recorded {start : World Acc Ev}
    (run : Run p start.snapshot leaves w) : Recorded p leaves w := by
  induction run with
  | start => exact ⟨fun _ => rfl, by simp⟩
  | tokenOut run tx signers index done ih =>
    obtain ⟨inner, ran, rfl⟩ := World.transact_eq_some.mp done
    exact ih.untouched (World.Untouched.commit ((tx.run_untouched signers index).whole ran))
  | tokenLeave run tx signers done ih => exact (ih.leave done).2
  | nextBlock run env ih => exact ⟨fun _ => rfl, ih.recorded⟩
  | other run untouched ih => exact ih.untouched untouched

/-- In every run in which each `TokenLeave` writes the transaction as `TransactionID` does,
no transaction is answered twice. -/
theorem leaves_unique (p : Client) (start w : World Acc Ev) (leaves : List TokenLeave)
    (run : Run p start.snapshot leaves w)
    (canonical : ∀ tx ∈ leaves, ∃ height index, tx.coinTXID = transactionID height index) :
    leaves.Pairwise fun tx tx' =>
      parseTransactionID tx.coinTXID ≠ parseTransactionID tx'.coinTXID := by
  induction run with
  | start => exact .nil
  | tokenOut run tx signers index done ih => exact ih canonical
  | tokenLeave run tx signers done ih =>
    rw [List.pairwise_append]
    refine ⟨ih fun tx listed => canonical tx (List.mem_append_left _ listed),
      List.pairwise_singleton _ _, fun earlier listed last single same => ?_⟩
    rw [List.mem_singleton] at single
    subst single
    have texts := eq_of_parse_eq (canonical earlier (List.mem_append_left _ listed))
      (canonical last (by simp)) same
    have known := run.recorded.recorded earlier listed
    rw [texts] at known
    exact known (run.recorded.leave done).1
  | nextBlock run env ih => exact ih canonical
  | other run untouched ih => exact ih canonical

end Gateway

end Run

namespace Instances

def gatewayWorld : World VaultAccount PlainEvent :=
  hundredCoins.setProcessData 3 (toAdminAddressKey gatewayName) someAddress.bytes

def leave (coinTXID : Bytes) : TokenLeave := ⟨someAddress, coinTXID, Amount.coin⟩

theorem two_leaves (first second : Bytes)
    (passed : ((gatewayWorld.snapshot.transact ((leave first).run someClient [[9]])).bind
      (World.transact ((leave second).run someClient [[9]]))).isSome = true) :
    ∃ w, Gateway.Run someClient gatewayWorld.snapshot [leave first, leave second] w := by
  obtain ⟨w, ran⟩ := Option.isSome_iff_exists.mp passed
  obtain ⟨mid, before, after⟩ := Option.bind_eq_some_iff.mp ran
  exact ⟨w, ((Gateway.Run.start).tokenLeave (leave first) [[9]] before).tokenLeave
    (leave second) [[9]] after⟩

/-- Two outgoing transactions of the same block are both answered. -/
theorem two_transactions_left : ∃ w : World VaultAccount PlainEvent,
    Gateway.Run someClient gatewayWorld.snapshot
        [leave (transactionID 10 1), leave (transactionID 10 2)] w ∧
      parseTransactionID (transactionID 10 1) ≠ parseTransactionID (transactionID 10 2) := by
  obtain ⟨w, run⟩ := two_leaves (transactionID 10 1) (transactionID 10 2)
    (by decide +kernel)
  have unique := Gateway.leaves_unique someClient gatewayWorld w _ run (by
    intro tx listed
    simp only [List.mem_cons, List.not_mem_nil, or_false] at listed
    rcases listed with rfl | rfl
    · exact ⟨10, 1, rfl⟩
    · exact ⟨10, 2, rfl⟩)
  exact ⟨w, run, by simpa [leave] using unique⟩

/-- One outgoing transaction is answered twice, in lower and in upper case digits. -/
theorem one_transaction_left_twice : (∃ w : World VaultAccount PlainEvent,
      Gateway.Run someClient gatewayWorld.snapshot
        [leave (ascii "0000000a0001"), leave (ascii "0000000A0001")] w) ∧
    parseTransactionID (ascii "0000000a0001") = .ok (10, 1) ∧
    parseTransactionID (ascii "0000000A0001") = .ok (10, 1) :=
  ⟨two_leaves _ _ (by decide +kernel), by decide +kernel, by decide +kernel⟩

end Instances

end Fleta
