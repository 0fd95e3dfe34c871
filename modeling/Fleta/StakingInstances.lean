import Fleta.Instances
import Fleta.SelfDelimiting
import Fleta.StakingTransactions

/-!
# Concrete stakers and formulators

Accounts that may carry a formulator, an encoding of pairs and states with a few stakers,
in which the results on staking can be evaluated.
-/

namespace Fleta.StakingInstances

open Instances

structure StakeAccount where
  address : Address
  formulation : Option Formulation

scoped instance : Account StakeAccount where
  address acc := acc.address
  name acc := acc.address.bytes

scoped instance : FormulatorAccounts StakeAccount where
  formulator acc := acc.formulation
  withStaking am acc :=
    { acc with formulation := acc.formulation.map fun frAcc => { frAcc with stakingAmount := am } }
  validate _ _ := .ok ()

def pairs : SelfDelimiting (List (Bytes × Bytes)) := .each (.pair .bytes .bytes)

scoped instance : PairsCodec where
  encode values := pairs.write values
  decode bs :=
    match pairs.read bs with
    | some (values, _) => .ok values
    | none => .error .invalidTransactionCount

scoped instance : LawfulPairsCodec where
  decode_encode values := by
    have read := pairs.read_write values []
    rw [List.append_nil] at read
    simp only [PairsCodec.decode, PairsCodec.encode, read]
  encode_ne_nil values := by
    have long := SelfDelimiting.length_lt_writeEach (.pair .bytes .bytes) values
    exact List.ne_nil_of_length_pos (Nat.zero_lt_of_lt long)

scoped instance : HyperPolicyCodec where
  stakingUnlockRequiredBlocks bs := .ok (uint32Of bs)

def formulatorProcess : Formulator := ⟨2, ⟨1, 3, 0⟩, by decide⟩

def hyperAddress : Address := Address.new 0 1 1

def stakerAddress : Address := Address.new 0 1 2

def stakingWorld (total : Int) : World StakeAccount PlainEvent where
  env := ⟨1, [], 1, 1, [], 0⟩
  standing addr :=
    if addr = hyperAddress then .present ⟨addr, some ⟨hyperFormulatorType, false, total, 0⟩⟩
    else if addr = stakerAddress then .present ⟨addr, none⟩
    else .absent
  names _ := none
  accountData _ _ _ := []
  processData _ _ := []
  events := []
  emptied _ _ _ := false
  emptiedProcess _ _ := false

def stakedWorld (am : Int) : World StakeAccount PlainEvent :=
  (stakingWorld am).setAccountData hyperAddress formulatorProcess.pid
    (Formulator.toStakingAmountKey stakerAddress) (Amount.toBytes am)

end Fleta.StakingInstances
