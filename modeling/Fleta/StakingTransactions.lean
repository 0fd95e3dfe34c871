import Fleta.Formulator

/-!
# Staking transactions

`Validate` and `Execute` of the transactions that move staked coins. `Staking` takes its
fee like any other transaction. The others take it from the balance of the sender when it
is there, and otherwise out of the amount that they move.
-/

namespace Fleta

open Script FormulatorAccounts

variable {Acc Ev : Type}

inductive StakingTx where
  | staking (sender hyperFormulator : Address) (amount : Int)
  | unstaking (sender hyperFormulator : Address) (amount : Int)
  | revertUnstaking (sender hyperFormulator : Address) (unstakedHeight : UInt32) (amount : Int)
  | changeStaking (sender hyperUnstaking hyperStaking : Address) (amount : Int)

namespace StakingTx

def sender : StakingTx → Address
  | staking sender _ _ => sender
  | unstaking sender _ _ => sender
  | revertUnstaking sender _ _ _ => sender
  | changeStaking sender _ _ _ => sender

def amount : StakingTx → Int
  | staking _ _ amount => amount
  | unstaking _ _ amount => amount
  | revertUnstaking _ _ _ amount => amount
  | changeStaking _ _ _ amount => amount

end StakingTx

variable [Account Acc] [FormulatorAccounts Acc] [PairsCodec] [HyperPolicyCodec]

/-- `toHyperFormulator`, and the same checks written out in the older transactions. -/
def toHyperFormulator (addr : Address) : Script Acc Ev Formulation := do
  let acc ← check (← account addr)
  match formulator acc with
  | none => fail .invalidAccountType
  | some frAcc =>
    if frAcc.formulatorType ≠ hyperFormulatorType then fail .invalidAccountType
    else return frAcc

/-- The type assertion of `Execute`, which panics on another account. -/
def assertFormulator (addr : Address) : Script Acc Ev Formulation := do
  let acc ← check (← account addr)
  match formulator acc with
  | none => fail .panicked
  | some frAcc => return frAcc

def validateSender (sender : Address) (signers : List PublicHash) : Script Acc Ev Unit := do
  let fromAcc ← check (← account sender)
  check (validate fromAcc signers)

def adjustStaking (am : Int) (acc : Acc) : Acc :=
  match formulator acc with
  | some frAcc => withStaking (frAcc.stakingAmount + am) acc
  | none => acc

def addToTotal (hyper : Address) (am : Int) : Script Acc Ev Unit := do
  let _ ← updateAccount hyper (adjustStaking am)
  return ()

/-- A new stake is not below the minimum of the hyper formulator, which is not revoked. -/
def acceptsStake (frAcc : Formulation) (amount : Int) : Except Err Unit :=
  if frAcc.isRevoked then .error .revokedFormulator
  else if frAcc.minimumStaking ≠ 0 ∧ amount < frAcc.minimumStaking then
    .error .invalidStakingAmount
  else .ok ()

variable (p : Formulator)

/-- The staker and the account both hold the amount. -/
def Formulator.validateStaked (hyper sender : Address) (frAcc : Formulation) (amount : Int) :
    Script Acc Ev Unit := do
  let fromStakingAmount ← p.getStakingAmount hyper sender
  if fromStakingAmount < amount then fail .insufficientStakingAmount
  else if frAcc.stakingAmount < amount then fail .insufficientStakingAmount
  else return ()

def StakingTx.validate (signers : List PublicHash) : StakingTx → Script Acc Ev Unit
  | staking sender hyper amount => do
      if amount < Amount.coin / 10 then fail .invalidStakingAmount
      if sender = hyper then fail .invalidStakingAddress
      let frAcc ← toHyperFormulator hyper
      check (acceptsStake frAcc amount)
      validateSender sender signers
      check (← p.vault.checkFeePayableWith sender (some amount))
  | unstaking sender hyper amount => do
      if amount < Amount.coin then fail .invalidStakingAmount
      let frAcc ← toHyperFormulator hyper
      validateSender sender signers
      p.validateStaked hyper sender frAcc amount
  | revertUnstaking sender hyper unstakedHeight amount => do
      if amount < Amount.coin then fail .invalidStakingAmount
      let _ ← toHyperFormulator hyper
      validateSender sender signers
      let am ← check (← p.getUnstakingAmount hyper sender unstakedHeight)
      if am < amount then fail .minusUnstakingAmount
  | changeStaking sender hyperUnstaking hyperStaking amount => do
      if amount < Amount.coin / 10 then fail .invalidStakingAmount
      if sender = hyperStaking then fail .invalidStakingAddress
      let frUnstaking ← toHyperFormulator hyperUnstaking
      p.validateStaked hyperUnstaking sender frUnstaking amount
      let frStaking ← toHyperFormulator hyperStaking
      check (acceptsStake frStaking amount)
      validateSender sender signers

/-- The end of a transaction that moves an amount which can pay for it: `move` moves the
amount, less the fee when the sender cannot pay it. -/
def Formulator.payFrom (sender : Address) (amount : Int) (move : Int → Script Acc Ev Unit) :
    Script Acc Ev Unit := do
  match ← p.vault.checkFeePayable sender with
  | .error _ =>
    let fee ← p.vault.getDefaultFee
    p.vault.addCollectedFee fee
    move (amount - fee)
  | .ok _ => p.vault.withFee sender (move amount)

def StakingTx.execute : StakingTx → Script Acc Ev Unit
  | staking sender hyper amount =>
    p.vault.withFee sender do
      let _ ← assertFormulator hyper
      let fromAcc ← check (← account sender)
      p.vault.subBalance (Account.address fromAcc) amount
      p.addStakingAmount hyper sender amount
      addToTotal hyper amount
  | unstaking sender hyper amount => do
      let _ ← assertFormulator hyper
      check (← p.subStakingAmount hyper sender amount)
      addToTotal hyper (-amount)
      let bs ← processData p.pid Formulator.tagHyperPolicy
      let blocks ← check (HyperPolicyCodec.stakingUnlockRequiredBlocks bs)
      let height := (← env).targetHeight + blocks
      p.payFrom sender amount fun am => p.addUnstakingAmount hyper sender height am
  | revertUnstaking sender hyper unstakedHeight amount => do
      let _ ← assertFormulator hyper
      p.subUnstakingAmount hyper sender unstakedHeight amount
      p.payFrom sender amount fun am => do
        p.addStakingAmount hyper sender am
        addToTotal hyper am
  | changeStaking sender hyperUnstaking hyperStaking amount => do
      let _ ← toHyperFormulator hyperUnstaking
      check (← p.subStakingAmount hyperUnstaking sender amount)
      addToTotal hyperUnstaking (-amount)
      let _ ← toHyperFormulator hyperStaking
      p.payFrom sender amount fun am => do
        p.addStakingAmount hyperStaking sender am
        addToTotal hyperStaking am

def StakingTx.run (signers : List PublicHash) (tx : StakingTx) : Script Acc Ev Unit := do
  tx.validate p signers
  tx.execute p

end Fleta
