import Fleta.RewardHook

/-!
# Keys of the storage

Every key of the backend and every name of the formulator and of the vault is a tag of two
bytes with the parts after it. The tags tell the kinds apart, and within one kind the parts
have a fixed width, except for the last one.
-/

namespace Fleta

open ByteOrder Database

@[simp] theorem Address.bytes_inj {left right : Address} :
    left.bytes = right.bytes ↔ left = right :=
  ⟨Address.eq_of_bytes_eq, congrArg Address.bytes⟩

variable {left right : UInt32}

@[simp] theorem uint32_big_endian_inj :
    bigEndian 4 left.toNat = bigEndian 4 right.toNat ↔ left = right := by
  constructor
  · intro same
    exact UInt32.toNat_inj.mp (big_endian_injective left.toNat_lt right.toNat_lt same)
  · intro same
    rw [same]

@[simp] theorem uint32_big_endian_append_inj {rest rest' : Bytes} :
    bigEndian 4 left.toNat ++ rest = bigEndian 4 right.toNat ++ rest' ↔
      left = right ∧ rest = rest' := by
  constructor
  · intro same
    have parts := List.append_inj same (by simp)
    exact ⟨uint32_big_endian_inj.mp parts.1, parts.2⟩
  · rintro ⟨rfl, rfl⟩
    rfl

/-- What the backend stores one value for. -/
inductive StorageEntry where
  | account (addr : Address)
  | accountName (name : Bytes)
  | accountData (addr : Address) (pid : UInt8) (name : Bytes)
  | utxo (id : UInt64)
  | processData (pid : UInt8) (name : Bytes)

def StorageEntry.key : StorageEntry → Bytes
  | account addr => toAccountKey addr
  | accountName name => toAccountNameKey name
  | accountData addr pid name => toAccountDataKey (accountDataKey addr pid name)
  | utxo id => toUTXOKey id
  | processData pid name => toProcessDataKey (processDataKey pid name)

theorem StorageEntry.key_injective : Function.Injective StorageEntry.key := by
  intro left right same
  -- two kinds differ in the tag; only the five pairs of one kind are left
  cases left <;> cases right <;>
    simp [key, toAccountKey, toAccountNameKey, toAccountDataKey, toUTXOKey, toProcessDataKey,
      tagAccount, tagAccountName, tagAccountData, tagUTXO, tagProcessData] at same
  case account.account => rw [same]
  case accountName.accountName => rw [same]
  case accountData.accountData =>
    obtain ⟨rfl, rfl, rfl⟩ := account_data_key_injective same
    rfl
  case utxo.utxo left right =>
    rw [UInt64.toNat_inj.mp (big_endian_injective left.toNat_lt right.toNat_lt same)]
  case processData.processData =>
    obtain ⟨rfl, rfl⟩ := process_data_key_injective same
    rfl

namespace Formulator

inductive Name where
  | stakingAmount (addr : Address)
  | stakingAmountNumber (addr : Address)
  | stakingAmountReverse (num : UInt32)
  | autoStaking (addr : Address)
  | genCount (addr : Address)
  | genCountNumber (addr : Address)
  | genCountReverse (num : UInt32)
  | revokedFormulator (height : UInt32) (addr : Address)
  | revokedFormulatorNumber (height : UInt32) (addr : Address)
  | revokedFormulatorReverse (height num : UInt32)
  | revokedFormulatorCount (height : UInt32)
  | unstakingAmount (height : UInt32) (addr : Address)
  | unstakingAmountNumber (height : UInt32) (addr : Address)
  | unstakingAmountReverse (height num : UInt32)
  | unstakingAmountCount (height : UInt32)

def Name.key : Name → Bytes
  | stakingAmount addr => toStakingAmountKey addr
  | stakingAmountNumber addr => toStakingAmountNumberKey addr
  | stakingAmountReverse num => toStakingAmountReverseKey num
  | autoStaking addr => toAutoStakingKey addr
  | genCount addr => toGenCountKey addr
  | genCountNumber addr => toGenCountNumberKey addr
  | genCountReverse num => toGenCountReverseKey num
  | revokedFormulator height addr => toRevokedFormulatorKey height addr
  | revokedFormulatorNumber height addr => toRevokedFormulatorNumberKey height addr
  | revokedFormulatorReverse height num => toRevokedFormulatorReverseKey height num
  | revokedFormulatorCount height => toRevokedFormulatorCountKey height
  | unstakingAmount height addr => toUnstakingAmountKey height addr
  | unstakingAmountNumber height addr => toUnstakingAmountNumberKey height addr
  | unstakingAmountReverse height num => toUnstakingAmountReverseKey height num
  | unstakingAmountCount height => toUnstakingAmountCountKey height

theorem Name.key_injective : Function.Injective Name.key := by
  intro left right same
  cases left <;> cases right <;>
    simp_all [key, toStakingAmountKey, toStakingAmountNumberKey, toStakingAmountReverseKey,
      toAutoStakingKey, toGenCountKey, toGenCountNumberKey, toGenCountReverseKey,
      toRevokedFormulatorKey, toRevokedFormulatorNumberKey, toRevokedFormulatorReverseKey,
      toRevokedFormulatorCountKey, toUnstakingAmountKey, toUnstakingAmountNumberKey,
      toUnstakingAmountReverseKey, toUnstakingAmountCountKey]

end Formulator

namespace Vault

def toLockedBalanceKey (height : UInt32) (addr : Address) : Bytes :=
  [2, 1] ++ (bigEndian 4 height.toNat ++ addr.bytes)

def toLockedBalanceNumberKey (height : UInt32) (addr : Address) : Bytes :=
  [2, 2] ++ (bigEndian 4 height.toNat ++ addr.bytes)

def toLockedBalanceReverseKey (height num : UInt32) : Bytes :=
  [2, 3] ++ (bigEndian 4 height.toNat ++ bigEndian 4 num.toNat)

def toLockedBalanceCountKey (height : UInt32) : Bytes := [2, 4] ++ bigEndian 4 height.toNat

inductive Name where
  | lockedBalance (height : UInt32) (addr : Address)
  | lockedBalanceNumber (height : UInt32) (addr : Address)
  | lockedBalanceReverse (height num : UInt32)
  | lockedBalanceCount (height : UInt32)

def Name.key : Name → Bytes
  | lockedBalance height addr => toLockedBalanceKey height addr
  | lockedBalanceNumber height addr => toLockedBalanceNumberKey height addr
  | lockedBalanceReverse height num => toLockedBalanceReverseKey height num
  | lockedBalanceCount height => toLockedBalanceCountKey height

theorem Name.key_injective : Function.Injective Name.key := by
  intro left right same
  cases left <;> cases right <;>
    simp_all [key, toLockedBalanceKey, toLockedBalanceNumberKey, toLockedBalanceReverseKey,
      toLockedBalanceCountKey]

end Vault

/-- Distinct entries have distinct keys in the backend, and the key builders of the formulator
and of the vault give distinct names. -/
theorem storage_keys_distinct :
    Function.Injective StorageEntry.key ∧ Function.Injective Formulator.Name.key ∧
      Function.Injective Vault.Name.key :=
  ⟨StorageEntry.key_injective, Formulator.Name.key_injective, Vault.Name.key_injective⟩

end Fleta
