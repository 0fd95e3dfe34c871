import Fleta.Formulator
import Fleta.MultiAccount

/-!
# Formulator accounts

The account type of the formulator process with all of its fields, as one of the account
types of a chain, and the policies that its transactions and its hook read.
-/

namespace Fleta

variable {Acc Ev : Type}

def alphaFormulatorType : UInt8 := 1

def sigmaFormulatorType : UInt8 := 2

def omegaFormulatorType : UInt8 := 3

structure ValidatorPolicy where
  commissionRatio1000 : UInt32
  minimumStaking : Int
  payOutInterval : UInt32
deriving DecidableEq

structure FormulatorAccount where
  address : Address
  name : Bytes
  formulatorType : UInt8
  keyHash : PublicHash
  genHash : PublicHash
  amount : Int
  isRevoked : Bool
  preHeight : UInt32
  updatedHeight : UInt32
  rewardCount : UInt32
  stakingAmount : Int
  policy : ValidatorPolicy
deriving DecidableEq

def FormulatorAccount.validate (acc : FormulatorAccount) (signers : List PublicHash) :
    Except Err Unit :=
  match signers with
  | [signer] => if acc.keyHash ≠ signer then .error .invalidAccountSigner else .ok ()
  | _ => .error .invalidSignerCount

/-- The account types of a chain, of which one is the formulator account. The type assertion
`acc.(*FormulatorAccount)` is `asFormulator`. -/
class FormulatorCast (Acc : Type) [Account Acc] [SignedAccount Acc] where
  ofFormulator : FormulatorAccount → Acc
  asFormulator : Acc → Option FormulatorAccount
  asFormulator_eq_some : ∀ acc fr, asFormulator acc = some fr ↔ acc = ofFormulator fr
  address_ofFormulator : ∀ fr, Account.address (ofFormulator fr) = fr.address
  validate_ofFormulator : ∀ fr signers,
    SignedAccount.validate (ofFormulator fr) signers = fr.validate signers

namespace FormulatorCast

variable [Account Acc] [SignedAccount Acc] [FormulatorCast Acc]

@[simp] theorem asFormulator_ofFormulator (fr : FormulatorAccount) :
    asFormulator (ofFormulator fr : Acc) = some fr := (asFormulator_eq_some _ _).mpr rfl

/-- What a change of the record is for the account that it is the record of. -/
def change (update : FormulatorAccount → FormulatorAccount) (acc : Acc) : Acc :=
  match asFormulator acc with
  | some fr => ofFormulator (update fr)
  | none => acc

@[simp] theorem change_ofFormulator (update : FormulatorAccount → FormulatorAccount)
    (fr : FormulatorAccount) : change update (ofFormulator fr : Acc) = ofFormulator (update fr) := by
  simp [change]

theorem address_change {update : FormulatorAccount → FormulatorAccount}
    (same : ∀ fr, (update fr).address = fr.address) (acc : Acc) :
    Account.address (change update acc) = Account.address acc := by
  unfold change
  split
  · rename_i fr cast
    rw [(asFormulator_eq_some acc fr).mp cast, address_ofFormulator, address_ofFormulator, same]
  · rfl

/-- Staking reads a part of the record. -/
instance : FormulatorAccounts Acc where
  formulator acc := (asFormulator acc).map fun fr =>
    ⟨fr.formulatorType, fr.isRevoked, fr.stakingAmount, fr.policy.minimumStaking⟩
  withStaking am := change fun fr => { fr with stakingAmount := am }
  validate := SignedAccount.validate

end FormulatorCast

structure RewardPolicy where
  rewardPerBlock : Int
  payRewardEveryBlocks : UInt32
  alphaEfficiency1000 : UInt32
  sigmaEfficiency1000 : UInt32
  omegaEfficiency1000 : UInt32
  hyperEfficiency1000 : UInt32
  stakingEfficiency1000 : UInt32

/-- The fields of `SigmaPolicy` and of `OmegaPolicy` that the merges read. -/
structure MergePolicy where
  requiredBlocks : UInt32
  requiredCount : UInt32

class PolicyCodecs where
  rewardPolicy : Bytes → Except Err RewardPolicy
  sigmaPolicy : Bytes → Except Err MergePolicy
  omegaPolicy : Bytes → Except Err MergePolicy

namespace Formulator

def tagRewardPolicy : Bytes := [2, 0]

def tagSigmaPolicy : Bytes := [2, 2]

def tagOmegaPolicy : Bytes := [2, 3]

def tagRewardBaseUpgrade : Bytes := [7, 0]

open Script

def getRewardPolicy [PolicyCodecs] (p : Formulator) : Script Acc Ev RewardPolicy := do
  let bs ← processData p.pid tagRewardPolicy
  check (PolicyCodecs.rewardPolicy bs)

def isRewardBaseUpgrade (p : Formulator) : Script Acc Ev Bool := do
  let bs ← processData p.pid tagRewardBaseUpgrade
  return bs.head? == some 1

end Formulator

inductive ChainAccount where
  | vault (acc : VaultAccount)
  | formulator (acc : FormulatorAccount)
deriving DecidableEq

namespace Instances

scoped instance : Account ChainAccount where
  address
    | .vault acc => Account.address acc
    | .formulator acc => acc.address
  name
    | .vault acc => Account.name acc
    | .formulator acc => acc.name

scoped instance : SignedAccount ChainAccount where
  validate
    | .vault acc => SignedAccount.validate acc
    | .formulator acc => acc.validate

scoped instance : FormulatorCast ChainAccount where
  ofFormulator := .formulator
  asFormulator
    | .vault _ => none
    | .formulator acc => some acc
  asFormulator_eq_some acc fr := by cases acc <;> simp
  address_ofFormulator _ := rfl
  validate_ofFormulator _ _ := rfl

/-- A coin for every block, paid in every block; two formulators are merged. -/
scoped instance : PolicyCodecs where
  rewardPolicy _ := .ok ⟨Amount.coin, 1, 1000, 1000, 1000, 1000, 1000⟩
  sigmaPolicy _ := .ok ⟨0, 2⟩
  omegaPolicy _ := .ok ⟨0, 2⟩

theorem process_ne_vault : (2 : UInt8) ≠ 1 := by decide

def someProcess : Formulator := ⟨2, ⟨1, 3, 0⟩, process_ne_vault⟩

end Instances

end Fleta
