import Fleta.VaultTransactions

/-!
# Accounts with several keys

`CreateMultiAccount` and `MultiAccount.Validate` of the vault. An account with several keys
asks for as many signers as it has keys, and for exactly as many of its keys among them as
it requires: it works as an account with a threshold only when it requires all of its keys.
-/

namespace Fleta

open World Address List

variable {Acc Ev : Type}

/-- `Validate` of an account, which asks nothing of the state. -/
class SignedAccount (Acc : Type) where
  validate : Acc → List PublicHash → Except Err Unit

def isAllowedAccountName [Base58] (name : Bytes) : Bool :=
  !(name.length < 8 || name.length > 40) && !(parse name).isOk && name.all fun c =>
      !((c < 48 || 57 < c) && (c < 97 || 122 < c) && (c < 65 || 90 < c) &&
        c ≠ 46 && c ≠ 45 && c ≠ 95 && c ≠ 64)

def hashSet (keys : List PublicHash) : SortedMap PublicHash Bool :=
  keys.foldl (fun set key => set.put key true) .empty

structure MultiAccount where
  address : Address
  name : Bytes
  required : UInt8
  keyHashes : List PublicHash
deriving DecidableEq

def MultiAccount.matchCount (acc : MultiAccount) (signers : List PublicHash) : Nat :=
  let signerMap := hashSet signers
  acc.keyHashes.foldl
    (fun count pubhash => if (signerMap.get pubhash).getD false then count + 1 else count) 0

def MultiAccount.validate (acc : MultiAccount) (signers : List PublicHash) : Except Err Unit :=
  if acc.keyHashes.length ≠ signers.length then .error .invalidSignerCount
  else if acc.matchCount signers ≠ acc.required.toNat then .error .invalidAccountSigner
  else .ok ()

structure CreateMultiAccount where
  sender : Address
  name : Bytes
  required : UInt8
  keyHashes : List PublicHash

namespace CreateMultiAccount

open Script

def validate [Base58] [SignedAccount Acc] (v : Vault) (signers : List PublicHash)
    (tx : CreateMultiAccount) : Script Acc Ev Unit := do
  if !isAllowedAccountName tx.name then fail .invalidAccountName
  else if tx.required < 1 then fail .invalidRequiredKeyHashCount
  else if tx.keyHashes.length ≤ 1 ∨ tx.keyHashes.length > 10 then fail .invalidMultiKeyHashCount
  else if (hashSet tx.keyHashes).len ≠ tx.keyHashes.length then fail .invalidMultiKeyHashCount
  else
    let fromAcc ← check (← account tx.sender)
    check (SignedAccount.validate fromAcc signers)
    check (← v.checkFeePayableWith tx.sender (some (Amount.coin * 10)))

def run [Base58] [SignedAccount Acc] [VaultAccounts Acc] [PolicyCodec] (p : Client)
    (signers : List PublicHash) (index : UInt16) (tx : CreateMultiAccount) :
    Script Acc Ev Unit := do
  tx.validate p.vault signers
  (CoinTx.createMultiAccount tx.sender tx.name tx.required tx.keyHashes).execute p index

end CreateMultiAccount

/-- What an account with a threshold promises of the lists of signers it accepts. -/
structure Threshold (keys : List PublicHash) (required : Nat)
    (accepts : List PublicHash → Prop) : Prop where
  distinct : ∀ signers : List PublicHash, signers.Nodup →
    (accepts signers ↔ required ≤ signers.countP (· ∈ keys) ∧ ∀ signer ∈ signers, signer ∈ keys)
  once : ∀ signers, accepts signers → required ≤ (keys.toFinset ∩ signers.toFinset).card
  possible : ∃ signers, accepts signers

variable (keys : List PublicHash)

theorem get_hashSet (key : PublicHash) :
    (hashSet keys).get key = if key ∈ keys then some true else none := by
  suffices from_any : ∀ set : SortedMap PublicHash Bool,
      (keys.foldl (fun set key => set.put key true) set).get key =
        if key ∈ keys then some true else set.get key by
    simpa [hashSet] using from_any .empty
  induction keys with
  | nil => simp
  | cons first rest ih =>
    intro set
    rw [foldl_cons, ih]
    by_cases later : key ∈ rest
    · simp [later]
    · rw [if_neg later, SortedMap.get_put]
      by_cases same : key = first
      · simp [same]
      · simp [same, later, Ne.symm same]

theorem len_hashSet : (hashSet keys).len = keys.toFinset.card := by
  have visited : ((hashSet keys).eachAll.map Prod.fst).toFinset = keys.toFinset := by
    ext key
    rw [mem_toFinset, mem_toFinset, ← SortedMap.has_iff_key_visited, get_hashSet]
    by_cases listed : key ∈ keys <;> simp [listed]
  rw [← visited, toFinset_card_of_nodup (SortedMap.each_all_keys_nodup _), length_map,
    SortedMap.length_eachAll]

theorem len_hashSet_eq_length {keys : List PublicHash} :
    (hashSet keys).len = keys.length ↔ keys.Nodup := by
  rw [len_hashSet]
  exact Multiset.toFinset_card_eq_card_iff_nodup (m := (keys : Multiset PublicHash))

namespace MultiAccount

theorem matchCount_eq (acc : MultiAccount) (signers : List PublicHash) :
    acc.matchCount signers = acc.keyHashes.countP (· ∈ signers) := by
  suffices from_any : ∀ (keys : List PublicHash) (count : Nat), keys.foldl (fun count pubhash =>
        if ((hashSet signers).get pubhash).getD false then count + 1 else count) count =
        count + keys.countP (· ∈ signers) by
    simpa [matchCount] using from_any acc.keyHashes 0
  intro keys
  induction keys with
  | nil => simp
  | cons key rest ih =>
    intro count
    rw [foldl_cons, ih, get_hashSet, countP_cons]
    by_cases signed : key ∈ signers
    · simp [signed]
      omega
    · simp [signed]

variable {acc : MultiAccount}

theorem validate_eq_ok {signers : List PublicHash} :
    acc.validate signers = .ok () ↔
      acc.keyHashes.length = signers.length ∧
        acc.keyHashes.countP (· ∈ signers) = acc.required.toNat := by
  unfold validate
  rw [matchCount_eq]
  by_cases length : acc.keyHashes.length = signers.length
  · by_cases counted : acc.keyHashes.countP (· ∈ signers) = acc.required.toNat
    · simp [length, counted]
    · simp [length, counted]
  · simp [length]

theorem threshold_iff (nodup : acc.keyHashes.Nodup) :
    Threshold acc.keyHashes acc.required.toNat (fun signers => acc.validate signers = .ok ()) ↔
      acc.required.toNat = acc.keyHashes.length := by
  constructor
  · intro threshold
    obtain ⟨signers, accepted⟩ := threshold.possible
    have few : acc.required.toNat ≤ acc.keyHashes.length := by
      rw [← (validate_eq_ok.mp accepted).2]
      exact countP_le_length
    -- As many keys as required are enough signers, but there are too few of them.
    have enough := (threshold.distinct (acc.keyHashes.take acc.required.toNat)
      (nodup.sublist (take_sublist _ _))).mpr
    have mine : ∀ signer ∈ acc.keyHashes.take acc.required.toNat, signer ∈ acc.keyHashes :=
      fun signer listed => mem_of_mem_take listed
    have counted : (acc.keyHashes.take acc.required.toNat).countP (· ∈ acc.keyHashes) =
        acc.required.toNat := by
      rw [countP_eq_length.mpr (by simpa using mine), length_take]
      omega
    have length := (validate_eq_ok.mp (enough ⟨counted.ge, mine⟩)).1
    rw [length_take] at length
    omega
  · intro all
    refine ⟨?_, ?_, ?_⟩
    · intro signers distinct
      rw [validate_eq_ok, all]
      constructor
      · intro accepted
        have signed : ∀ key ∈ acc.keyHashes, key ∈ signers := by
          simpa using countP_eq_length.mp accepted.2
        have perm := (subperm_of_subset nodup signed).perm_of_length_le accepted.1.ge
        have mine : ∀ signer ∈ signers, signer ∈ acc.keyHashes :=
          fun signer listed => perm.symm.subset listed
        rw [countP_eq_length.mpr (by simpa using mine)]
        exact ⟨accepted.1.le, mine⟩
      · intro signed
        rw [countP_eq_length.mpr (by simpa using signed.2)] at signed
        have perm := (subperm_of_subset distinct signed.2).perm_of_length_le signed.1
        refine ⟨perm.length_eq.symm, countP_eq_length.mpr ?_⟩
        simpa using fun key (listed : key ∈ acc.keyHashes) => perm.symm.subset listed
    · intro signers accepted
      rw [← (validate_eq_ok.mp accepted).2, countP_eq_length_filter,
        ← toFinset_card_of_nodup (nodup.filter _)]
      apply Finset.card_le_card
      intro key counted
      simpa using counted
    · refine ⟨acc.keyHashes, validate_eq_ok.mpr ⟨rfl, ?_⟩⟩
      rw [all]
      exact countP_eq_length.mpr (by simp)

end MultiAccount

class LawfulMultiAccount (Acc : Type) [Account Acc] [VaultAccounts Acc] [SignedAccount Acc] :
    Prop where
  address_multi : ∀ addr name required keyHashes,
    Account.address (VaultAccounts.multiAccount addr name required keyHashes : Acc) = addr
  validate_multi : ∀ addr name required keyHashes signers,
    SignedAccount.validate (VaultAccounts.multiAccount addr name required keyHashes : Acc) signers =
      MultiAccount.validate ⟨addr, name, required, keyHashes⟩ signers

/-- An account that is created is the one that is found, unless it was deleted in the block. -/
theorem World.insertAccount_account [Account Acc] [Base58] {tolerated : Err → Bool} {acc : Acc}
    {w w' : World Acc Ev} (done : w.insertAccount tolerated acc = (.ok (), w')) {found : Acc}
    (present : w'.account (Account.address acc) = .ok found) : found = acc := by
  unfold insertAccount at done
  dsimp only at done
  repeat' split at done
  all_goals try cases done
  · simp [account, stand] at present
  · simpa [account, stand] using present.symm

section Run

variable [Account Acc] [Event Ev] [Base58] [VaultAccounts Acc] [SignedAccount Acc]

open Script

omit [VaultAccounts Acc] in
theorem CreateMultiAccount.validate_asks (v : Vault) (signers : List PublicHash)
    (join : World Acc Ev → World Acc Ev → World Acc Ev) (tx : CreateMultiAccount) :
    (tx.validate v signers : Script Acc Ev Unit).Asks join
      fun _ => tx.keyHashes.Nodup := by
  unfold CreateMultiAccount.validate
  split
  · exact .fail _
  split
  · exact .fail _
  split
  · exact .fail _
  split
  · exact .fail _
  rename_i distinct
  have reads : ∀ fromAcc : Acc, (do
      check (SignedAccount.validate fromAcc signers)
      check (← v.checkFeePayableWith tx.sender (some (Amount.coin * 10))) :
        Script Acc Ev Unit).Asks join fun _ => True :=
    fun fromAcc => (Asks.check _).later fun _ =>
      (Vault.checkFeePayableWith_asks _ _ _ _).later .check
  intro w w' next done
  have rest := ((Asks.account tx.sender).later fun acc => (Asks.check acc).later reads) w w' next done
  exact ⟨len_hashSet_eq_length.mp (not_not.mp distinct), rest.2⟩

variable {w w' : World Acc Ev} {index : UInt16}

omit [SignedAccount Acc] [VaultAccounts Acc] in
theorem Vault.openAccount_account {v : Vault} {sender : Address} {cost : Int} (positive : 0 ≤ cost) {acc : Address → Acc} (own : ∀ addr, Account.address (acc addr) = addr)
    {join : World Acc Ev → World Acc Ev → World Acc Ev}
    (done : (v.openAccount sender cost index acc).toProg.exec join w = (.ok (), w')) {found : Acc}
    (present : w'.account (new w.env.targetHeight index v.magic) = .ok found) :
    found = acc (new w.env.targetHeight index v.magic) := by
  simp only [openAccount, toProg, bind_apply, exec_subBalance] at done
  split at done
  · cases done
  simp only [exec_addCollectedFee v _ _ _ positive, newAddress, bind_apply, exec_env,
    pure_apply, World.setCollectedFee, World.setBalance, World.setProcessData,
    World.setAccountData, Script.createAccount, Prog.exec] at done
  rcases created : (insertAccount _ (acc _) _ : Except Err Unit × World Acc Ev) with
    ⟨result, last⟩
  rw [created] at done
  cases result with
  | error err => cases done
  | ok =>
    obtain rfl : last = w' := (Prod.mk.inj done).2
    apply insertAccount_account created
    rwa [own]

variable [PolicyCodec]

theorem CreateMultiAccount.run_account [LawfulMultiAccount Acc] {p : Client}
    {signers : List PublicHash} {tx : CreateMultiAccount}
    (done : (tx.run p signers index).toProg.exec commit w = (.ok (), w')) :
    tx.keyHashes.Nodup ∧ ∀ found,
      w'.account (new w.env.targetHeight index p.vault.magic) = .ok found →
        found = VaultAccounts.multiAccount (new w.env.targetHeight index p.vault.magic)
          tx.name tx.required tx.keyHashes := by
  obtain ⟨nodup, _, executed⟩ := tx.validate_asks p.vault signers _ _ _ _ done
  refine ⟨nodup, fun found present => ?_⟩
  simp only [CoinTx.execute, Vault.exec_withFee] at executed
  split at executed
  · cases executed
  obtain ⟨inner, opened, rest⟩ := Script.within_ok executed
  obtain rfl : commit (w.charged p.vault tx.sender) inner = w' := (Prod.mk.inj rest).2
  apply Vault.openAccount_account (by decide) (fun _ => LawfulMultiAccount.address_multi ..) opened
  exact present

/-- An account that `CreateMultiAccount` admits has a threshold exactly when it requires all
of its keys. -/
theorem CreateMultiAccount.threshold_iff_all_required [LawfulMultiAccount Acc] (p : Client)
    (signers : List PublicHash) (index : UInt16) (tx : CreateMultiAccount) (w w' : World Acc Ev)
    (admitted : (tx.run p signers index).toProg.exec commit w = (.ok (), w')) (acc : Acc)
    (created : w'.account (new w.env.targetHeight index p.vault.magic) = .ok acc) :
    Threshold tx.keyHashes tx.required.toNat
        (fun signers => SignedAccount.validate acc signers = .ok ()) ↔
      tx.required.toNat = tx.keyHashes.length := by
  obtain ⟨nodup, described⟩ := CreateMultiAccount.run_account admitted
  rw [described acc created]
  simp only [LawfulMultiAccount.validate_multi]
  exact @MultiAccount.threshold_iff ⟨_, _, _, _⟩ nodup

end Run

inductive VaultAccount where
  | single (acc : Instances.SingleAccount)
  | multi (acc : MultiAccount)
deriving DecidableEq

namespace Instances

def SingleAccount.validate (acc : SingleAccount) (signers : List PublicHash) : Except Err Unit :=
  match signers with
  | [signer] => if acc.keyHash ≠ signer then .error .invalidAccountSigner else .ok ()
  | _ => .error .invalidSignerCount

scoped instance : Account VaultAccount where
  address
    | .single acc => acc.address
    | .multi acc => acc.address
  name
    | .single acc => acc.name
    | .multi acc => acc.name

scoped instance : VaultAccounts VaultAccount where
  singleAccount addr name keyHash := .single ⟨addr, name, keyHash⟩
  multiAccount addr name required keyHashes := .multi ⟨addr, name, required, keyHashes⟩

scoped instance : SignedAccount VaultAccount where
  validate
    | .single acc => acc.validate
    | .multi acc => acc.validate

scoped instance : LawfulMultiAccount VaultAccount where
  address_multi _ _ _ _ := rfl
  validate_multi _ _ _ _ _ := rfl

def hundredCoins : World VaultAccount PlainEvent :=
  setBalance someClient.vault ⟨⟨1, [], 1, 1, [], 0⟩,
      Function.update (fun _ => .absent) someAddress (.present (.single ⟨someAddress, [97], [9]⟩)),
      fun _ => none, fun _ _ _ => [], fun _ _ => [], [], fun _ _ _ => false, fun _ _ => false⟩
    someAddress (Amount.coin * 100)

def twoKeys (required : UInt8) : CreateMultiAccount :=
  ⟨someAddress, ascii "two.keys", required, [[1], [2]]⟩

def twoKeysAccount (required : UInt8) : VaultAccount :=
  .multi ⟨new 1 0 0, ascii "two.keys", required, [[1], [2]]⟩

theorem twoKeys_admitted (required : UInt8)
    (some : required = 1 ∨ required = 2) : ∃ w' : World VaultAccount PlainEvent,
      ((twoKeys required).run someClient [[9]] 0).toProg.exec commit hundredCoins =
          (.ok (), w') ∧
        w'.account (new 1 0 0) = .ok (twoKeysAccount required) := by
  have admitted :
      let outcome := ((twoKeys required).run someClient [[9]] 0).toProg.exec commit hundredCoins
      outcome.1 = .ok () ∧ outcome.2.account (new 1 0 0) = .ok (twoKeysAccount required) := by
    rcases some with rfl | rfl <;> decide +kernel
  exact ⟨_, Prod.ext admitted.1 rfl, admitted.2⟩

/-- An account that requires both of its keys has a threshold. -/
theorem both_keys_required :
    Threshold [[1], [2]] 2 fun signers =>
      SignedAccount.validate (twoKeysAccount 2) signers = .ok () := by
  obtain ⟨w', admitted, created⟩ := twoKeys_admitted 2 (.inr rfl)
  exact (CreateMultiAccount.threshold_iff_all_required someClient [[9]] 0 (twoKeys 2)
    hundredCoins w' admitted (twoKeysAccount 2) created).mpr rfl

/-- An account that requires one of its two keys is admitted and refuses either of them. -/
theorem one_of_two_keys_refused : (∃ w' : World VaultAccount PlainEvent,
      ((twoKeys 1).run someClient [[9]] 0).toProg.exec commit hundredCoins = (.ok (), w') ∧
        w'.account (new 1 0 0) = .ok (twoKeysAccount 1)) ∧
    SignedAccount.validate (twoKeysAccount 1) [[1]] = .error .invalidSignerCount ∧
    ¬Threshold [[1], [2]] 1 fun signers =>
      SignedAccount.validate (twoKeysAccount 1) signers = .ok () := by
  refine ⟨twoKeys_admitted 1 (.inl rfl), by decide, fun threshold => ?_⟩
  have accepted := (threshold.distinct [[1]] (by decide)).mpr (by decide)
  exact absurd accepted (by decide)

end Instances

end Fleta
