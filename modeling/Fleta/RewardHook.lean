import Fleta.FormulatorAccount
import Fleta.Shares

/-!
# The hook of the formulator process

After the transactions of a block the process counts the generator of the block. In a
reward round the generators since the last one get their parts of the reward: formulators
as a balance, and the stakers of a hyper formulator as a reward that is stacked until the
payout of that hyper formulator is due. Then the formulators that were revoked for this
height are deleted, and the amounts unstaked for it are paid.

Some loops of the source go through maps that have no order. The orders are a parameter.
-/

namespace Fleta

open ByteOrder Script

variable {Acc Ev : Type}

/-- The loops over maps without an order. -/
inductive MapLoop where
  | counts
  | staked (hyper : Address)
  | crossed (hyper : Address)
  | rewards
  | stacks
  | returned (hyper : Address)

/-- The order in which each of the loops goes through its entries. -/
structure MapOrders where
  arrange : {α : Type} → MapLoop → List α → List α
  perm : ∀ {α : Type} (loop : MapLoop) (entries : List α), (arrange loop entries).Perm entries

namespace AmountMap

def addAmount (addr : Address) (am : Int) (mp : SortedMap Address Int) : SortedMap Address Int :=
  match mp.get addr with
  | some old => mp.put addr (old + am)
  | none => mp.put addr am

def addAmountOf (hyper addr : Address) (am : Int)
    (mps : SortedMap Address (SortedMap Address Int)) :
    SortedMap Address (SortedMap Address Int) :=
  mps.put hyper (addAmount addr am ((mps.get hyper).getD .empty))

end AmountMap

open AmountMap

structure RewardEvent where
  height : UInt32
  index : UInt16
  n : UInt16
  genBlockMap : SortedMap Address UInt32
  rewardMap : SortedMap Address Int
  stackedMap : SortedMap Address Int
  commissionMap : SortedMap Address Int
  stakedMap : SortedMap Address (SortedMap Address Int)
  stakeRewardMap : SortedMap Address (SortedMap Address Int)

namespace RewardEvent

def start (height : UInt32) : RewardEvent :=
  ⟨height, 65535, 0, .empty, .empty, .empty, .empty, .empty, .empty⟩

variable (ev : RewardEvent)

def addReward (addr : Address) (am : Int) : RewardEvent :=
  { ev with rewardMap := addAmount addr am ev.rewardMap }

def addStacked (addr : Address) (am : Int) : RewardEvent :=
  { ev with stackedMap := addAmount addr am ev.stackedMap }

def removeStacked (addr : Address) : RewardEvent :=
  { ev with stackedMap := ev.stackedMap.delete addr }

def addCommission (addr : Address) (am : Int) : RewardEvent :=
  { ev with commissionMap := addAmount addr am ev.commissionMap }

def addStaked (hyper addr : Address) (am : Int) : RewardEvent :=
  { ev with stakedMap := addAmountOf hyper addr am ev.stakedMap }

def addStakeReward (hyper addr : Address) (am : Int) : RewardEvent :=
  { ev with stakeRewardMap := addAmountOf hyper addr am ev.stakeRewardMap }

end RewardEvent

structure RevokedEvent where
  height : UInt32
  index : UInt16
  n : UInt16
  formulator : Address

structure UnstakedEvent where
  height : UInt32
  index : UInt16
  n : UInt16
  hyperFormulator : Address
  address : Address
  amount : Int

/-- The events of the formulator process among those of a chain. -/
class FormulatorEvents (Ev : Type) where
  reward : RewardEvent → Ev
  revoked : RevokedEvent → Ev
  unstaked : UnstakedEvent → Ev

structure Round where
  rewardPowerSum : Int
  rewardPowerMap : SortedMap Address Int
  stakingRewardPowerMap : SortedMap Address Int
  hypers : List FormulatorAccount
  stackRewardMap : SortedMap Address Int
  event : RewardEvent

def Round.start (height : UInt32) (stackRewardMap : SortedMap Address Int) : Round :=
  ⟨0, .empty, .empty, [], stackRewardMap, .start height⟩

def RewardPolicy.efficiency1000 (policy : RewardPolicy) (formulatorType : UInt8) : Option UInt32 :=
  if formulatorType = alphaFormulatorType then some policy.alphaEfficiency1000
  else if formulatorType = sigmaFormulatorType then some policy.sigmaEfficiency1000
  else if formulatorType = omegaFormulatorType then some policy.omegaEfficiency1000
  else if formulatorType = hyperFormulatorType then some policy.hyperEfficiency1000
  else none

def rewardPower (am : Int) (genCount efficiency1000 : UInt32) : Int :=
  am * genCount.toNat * efficiency1000.toNat / 1000

/-- The part of a staker's reward that the hyper formulator keeps. -/
def ValidatorPolicy.commission (policy : ValidatorPolicy) (rewardAmount : Int) : Int :=
  if policy.commissionRatio1000 > 0 then
    rewardAmount * policy.commissionRatio1000.toNat / 1000
  else 0

/-- The source asks so in many places: an account deleted in this block is no account. -/
def Script.isAccount (addr : Address) : Script Acc Ev Bool := do
  match ← hasAccount addr with
  | .ok has => return has
  | .error err => if err = .deletedAccount then return false else fail err

namespace Formulator

def toGenCountKey (addr : Address) : Bytes := [3, 0] ++ addr.bytes

def toGenCountNumberKey (addr : Address) : Bytes := [3, 1] ++ addr.bytes

def toGenCountReverseKey (num : UInt32) : Bytes := [3, 2] ++ bigEndian 4 num.toNat

def tagGenCountCount : Bytes := [3, 3]

def tagStakingAmountMap : Bytes := [4, 0]

def tagStakingPowerMap : Bytes := [4, 1]

def tagStackRewardMap : Bytes := [4, 2]

def tagLastStakingPaidHeight : Bytes := [4, 3]

def tagLastPaidHeight : Bytes := [4, 5]

def toRevokedFormulatorKey (height : UInt32) (addr : Address) : Bytes :=
  [5, 0] ++ (bigEndian 4 height.toNat ++ addr.bytes)

def toRevokedFormulatorNumberKey (height : UInt32) (addr : Address) : Bytes :=
  [5, 1] ++ (bigEndian 4 height.toNat ++ addr.bytes)

def toRevokedFormulatorReverseKey (height num : UInt32) : Bytes :=
  [5, 2] ++ (bigEndian 4 height.toNat ++ bigEndian 4 num.toNat)

def toRevokedFormulatorCountKey (height : UInt32) : Bytes := [5, 3] ++ bigEndian 4 height.toNat

def tagRevokedHeight : Bytes := [5, 4]

section Methods

variable (p : Formulator)

def generators : Index Acc Ev where
  read := processData p.pid
  write := setProcessData p.pid
  numberKey := toGenCountNumberKey
  reverseKey := toGenCountReverseKey
  countKey := tagGenCountCount

def getGenCount (addr : Address) : Script Acc Ev UInt32 := do
  let bs ← processData p.pid (toGenCountKey addr)
  return if bs.length > 0 then uint32Of bs else 0

def addGenCount (addr : Address) : Script Acc Ev Unit := do
  p.generators.add addr
  let count ← p.getGenCount addr
  setProcessData p.pid (toGenCountKey addr) (uint32Bytes (count + 1))

def flushGenCount (counts : SortedMap Address UInt32) (i : Nat) :
    Script Acc Ev (SortedMap Address UInt32) := do
  let bs ← processData p.pid (toGenCountReverseKey (UInt32.ofNat i))
  let addr := Database.addressOf bs
  let count ← p.getGenCount addr
  setProcessData p.pid (toGenCountKey addr) []
  setProcessData p.pid (toGenCountNumberKey addr) []
  setProcessData p.pid (toGenCountReverseKey (UInt32.ofNat i)) []
  return counts.put addr count

def flushGenCountMap : Script Acc Ev (SortedMap Address UInt32) := do
  let bs ← processData p.pid tagGenCountCount
  if bs.length > 0 then
    let counts ← (List.range (uint32Of bs).toNat).foldlM p.flushGenCount .empty
    setProcessData p.pid tagGenCountCount []
    return counts
  else return .empty

def getStakingAmountMap (hyper : Address) : Script Acc Ev (SortedMap Address Int) := do
  let bs ← accountData hyper p.pid tagStakingAmountCount
  if bs.length > 0 then
    (List.range (uint32Of bs).toNat).foldlM (fun amounts i => do
      let bs ← accountData hyper p.pid (toStakingAmountReverseKey (UInt32.ofNat i))
      let am ← p.getStakingAmount hyper (Database.addressOf bs)
      return amounts.put (Database.addressOf bs) am) .empty
  else return .empty

def getLastPaidHeight : Script Acc Ev UInt32 := do
  let bs ← processData p.pid tagLastPaidHeight
  return if bs.length > 0 then uint32Of bs else 0

def setLastPaidHeight (height : UInt32) : Script Acc Ev Unit :=
  setProcessData p.pid tagLastPaidHeight (uint32Bytes height)

def getLastStakingPaidHeight (addr : Address) : Script Acc Ev UInt32 := do
  let bs ← accountData addr p.pid tagLastStakingPaidHeight
  return if bs.length > 0 then uint32Of bs else 0

def setLastStakingPaidHeight (addr : Address) (height : UInt32) : Script Acc Ev Unit :=
  setAccountData addr p.pid tagLastStakingPaidHeight (uint32Bytes height)

def getUserAutoStaking (hyper staker : Address) : Script Acc Ev Bool := do
  let bs ← accountData hyper p.pid (toAutoStakingKey staker)
  return bs.head? == some 1

end Methods

variable [PairsCodec] (p : Formulator)

def loadAmountMap (addr : Address) (name : Bytes) : Script Acc Ev (SortedMap Address Int) := do
  let bs ← accountData addr p.pid name
  if bs.length > 0 then check (unmarshal bs) else return .empty

/-- The stakers of a hyper formulator are looked through. An amount of a staker that does not
exist is removed, and the others are compared with those of the round before. -/
def crossStaker (hyper : Address) (prev : SortedMap Address Int)
    (maps : SortedMap Address Int × SortedMap Address Int) (entry : Address × Int) :
    Script Acc Ev (SortedMap Address Int × SortedMap Address Int) := do
  let (current, cross) := maps
  let (staker, am) := entry
  if ← isAccount staker then
    let current := current.put staker am
    match prev.get staker with
    | some prevAm =>
      if prevAm ≠ 0 ∧ am ≠ 0 then
        return (current, cross.put staker (if am < prevAm then am else prevAm))
      else return (current, cross)
    | none => return (current, cross)
  else
    -- the error is ignored
    let _ ← p.subStakingAmount hyper staker am
    return (current, cross)

def sumPower (sums : Int × List Address) (entry : Address × Int) :
    Script Acc Ev (Int × List Address) := do
  let (sum, deleteds) := sums
  let (staker, power) := entry
  if ← isAccount staker then return (sum + power, deleteds)
  else return (sum, deleteds ++ [staker])

def existingPowers (powers : SortedMap Address Int) :
    Script Acc Ev (Int × SortedMap Address Int) := do
  let (sum, deleteds) ← powers.eachAll.foldlM sumPower (0, [])
  return (sum, deleteds.foldl (fun powers staker => powers.delete staker) powers)

def stakingRewardPower (orders : MapOrders) (policy : RewardPolicy) (hyper : Address)
    (genCount : UInt32) (stackReward : Option Int) : Script Acc Ev Int := do
  let prev ← p.loadAmountMap hyper tagStakingAmountMap
  let amounts ← p.getStakingAmountMap hyper
  let (current, cross) ←
    (orders.arrange (.staked hyper) amounts.eachAll).foldlM (p.crossStaker hyper prev)
      (.empty, .empty)
  setAccountData hyper p.pid tagStakingAmountMap (marshal current)
  let powers ← p.loadAmountMap hyper tagStakingPowerMap
  let crossed := orders.arrange (.crossed hyper) cross.eachAll
  let powers := crossed.foldl (fun powers (staker, am) => addAmount staker am powers) powers
  let power : Int := crossed.foldl
    (fun power (_, am) => power + rewardPower am genCount policy.stakingEfficiency1000) (0 : Int)
  let (powers, power) ← match stackReward with
    | none => pure (powers, power)
    | some stackReward => do
        let (sum, powers) ← existingPowers powers
        if sum = 0 then pure (powers, power)
        else
          let rate := Shares.ratio Amount.coin stackReward sum
          pure (powers.eachAll.foldl
              (fun mp (staker, own) => mp.put staker (own + Shares.share Amount.coin rate own))
              powers,
            powers.eachAll.foldl (fun (power : Int) (_, own) => power +
                rewardPower (Shares.share Amount.coin rate own) genCount
                  policy.stakingEfficiency1000)
              power)
  setAccountData hyper p.pid tagStakingPowerMap (marshal powers)
  return power

section Gather

variable [Account Acc] [SignedAccount Acc] [FormulatorCast Acc]

def gatherPower (orders : MapOrders) (policy : RewardPolicy) (round : Round)
    (entry : Address × UInt32) : Script Acc Ev Round := do
  let (gen, genCount) := entry
  let round := { round with
    event := { round.event with genBlockMap := round.event.genBlockMap.put gen genCount } }
  if ← isAccount gen then
    let acc ← check (← account gen)
    match FormulatorCast.asFormulator acc with
    | none => fail .invalidAccountType
    | some fr =>
      if fr.isRevoked then return round
      else
        let _ ← updateAccount gen
          (FormulatorCast.change fun fr => { fr with rewardCount := fr.rewardCount + 1 })
        match policy.efficiency1000 fr.formulatorType with
        | none => fail .invalidAccountType
        | some efficiency1000 =>
          let am := rewardPower fr.amount genCount efficiency1000
          let round := { round with
            rewardPowerSum := round.rewardPowerSum + am
            rewardPowerMap := round.rewardPowerMap.put gen am }
          if fr.formulatorType = hyperFormulatorType then
            let power ← p.stakingRewardPower orders policy fr.address genCount
              (round.stackRewardMap.get fr.address)
            return { round with
              rewardPowerSum := round.rewardPowerSum + power
              stakingRewardPowerMap := round.stakingRewardPowerMap.put gen power
              hypers := round.hypers ++ [fr] }
          else return round
  else return { round with stackRewardMap := round.stackRewardMap.delete gen }

def gather (orders : MapOrders) (policy : RewardPolicy) : Script Acc Ev Round := do
  let height := (← env).targetHeight
  let counts ← p.flushGenCountMap
  let bs ← processData p.pid tagStackRewardMap
  let stackRewardMap ← if bs.length > 0 then check (unmarshal bs) else pure .empty
  (orders.arrange .counts counts.eachAll).foldlM (p.gatherPower orders policy)
    (Round.start height stackRewardMap)

end Gather

section Distribute

def payReward (rate : Int) (round : Round) (entry : Address × Int) : Script Acc Ev Round := do
  let (addr, power) := entry
  let am := Shares.share Amount.coin rate power
  if am ≠ 0 then
    p.vault.addBalance addr am
    return { round with event := round.event.addReward addr am }
  else return round

def stackReward (rate : Int) (round : Round) (entry : Address × Int) : Script Acc Ev Round := do
  let (gen, power) := entry
  if ← isAccount gen then
    let am := Shares.share Amount.coin rate power
    return { round with
      stackRewardMap := addAmount gen am round.stackRewardMap
      event := round.event.addStacked gen am }
  else return round

/-- The reward of the blocks since the last round and the collected fee are distributed. -/
def distribute (orders : MapOrders) (policy : RewardPolicy) (blocks : UInt32) (round : Round) :
    Script Acc Ev Round := do
  if round.rewardPowerSum = 0 then return round
  else
    let totalFee ← p.vault.collectedFee
    p.vault.subCollectedFee totalFee
    let totalReward := policy.rewardPerBlock * blocks.toNat + totalFee
    let rate := Shares.ratio Amount.coin totalReward round.rewardPowerSum
    let round' ← (orders.arrange .rewards round.rewardPowerMap.eachAll).foldlM
      (p.payReward rate) round
    (orders.arrange .stacks round.stakingRewardPowerMap.eachAll).foldlM (stackReward rate) round'

end Distribute

section PayOut

/-- A staker gets the share of the stacked reward without the commission, as a balance or as
staked amount. -/
def payStaker (fr : FormulatorAccount) (rate : Int) (sums : Int × RewardEvent)
    (entry : Address × Int) : Script Acc Ev (Int × RewardEvent) := do
  let (commissionSum, ev) := sums
  let (staker, power) := entry
  let rewardAmount := Shares.share Amount.coin rate power
  let commission := fr.policy.commission rewardAmount
  let paid := rewardAmount - commission
  if paid ≠ 0 then
    if ← p.getUserAutoStaking fr.address staker then
      p.addStakingAmount fr.address staker paid
      return (commissionSum + commission, ev.addStaked fr.address staker paid)
    else
      p.vault.addBalance staker paid
      return (commissionSum + commission, ev.addStakeReward fr.address staker paid)
  else return (commissionSum + commission, ev)

def payStakers (fr : FormulatorAccount) (stackReward : Int) (ev : RewardEvent) :
    Script Acc Ev RewardEvent := do
  let powers ← p.loadAmountMap fr.address tagStakingPowerMap
  let (stakingPowerSum, powers) ← existingPowers powers
  if stakingPowerSum ≠ 0 then
    let rate := Shares.ratio Amount.coin stackReward stakingPowerSum
    let (commissionSum, ev) ← powers.eachAll.foldlM (p.payStaker fr rate) (0, ev)
    if commissionSum ≠ 0 then
      p.vault.addBalance fr.address commissionSum
      return ev.addCommission fr.address commissionSum
    else return ev
  else return ev

/-- The payout is due. The sum and the product wrap around. -/
def isPayOutHeight (policy : RewardPolicy) (fr : FormulatorAccount)
    (height lastStakingPaidHeight : UInt32) : Bool :=
  height ≥ lastStakingPaidHeight + policy.payRewardEveryBlocks * fr.policy.payOutInterval

def payOut (policy : RewardPolicy) (height : UInt32) (round : Round) (fr : FormulatorAccount) :
    Script Acc Ev Round := do
  match round.stackRewardMap.get fr.address with
  | none => return round
  | some stackReward =>
    let round := { round with event := round.event.removeStacked fr.address }
    let lastStakingPaidHeight ← p.getLastStakingPaidHeight fr.address
    if isPayOutHeight policy fr height lastStakingPaidHeight then
      let ev ← p.payStakers fr stackReward round.event
      setAccountData fr.address p.pid tagStakingPowerMap []
      p.setLastStakingPaidHeight fr.address height
      return { round with stackRewardMap := round.stackRewardMap.delete fr.address, event := ev }
    else return round

end PayOut

variable [Account Acc] [SignedAccount Acc] [FormulatorCast Acc] [FormulatorEvents Ev]

def finish (policy : RewardPolicy) (round : Round) : Script Acc Ev Unit := do
  let height := (← env).targetHeight
  let round ← round.hypers.foldlM (p.payOut policy height) round
  setProcessData p.pid tagStackRewardMap (marshal round.stackRewardMap)
  emitEvent (FormulatorEvents.reward round.event)
  p.setLastPaidHeight height

def payRewards (orders : MapOrders) (policy : RewardPolicy) (lastPaidHeight : UInt32) :
    Script Acc Ev Unit := do
  let height := (← env).targetHeight
  let round ← p.gather orders policy
  let round ← p.distribute orders policy (height - lastPaidHeight) round
  p.finish policy round

def flushRevokedFormulator (height : UInt32) (revoked : SortedMap Address Address) (i : Nat) :
    Script Acc Ev (SortedMap Address Address) := do
  let bs ← processData p.pid (toRevokedFormulatorReverseKey height (UInt32.ofNat i))
  let addr := Database.addressOf bs
  let heritor ← processData p.pid (toRevokedFormulatorKey height addr)
  if heritor.length > 0 then
    setAccountData addr p.pid tagRevokedHeight []
    setProcessData p.pid (toRevokedFormulatorKey height addr) []
    setProcessData p.pid (toRevokedFormulatorNumberKey height addr) []
    setProcessData p.pid (toRevokedFormulatorReverseKey height (UInt32.ofNat i)) []
    return revoked.put addr (Database.addressOf heritor)
  else fail .notExistRevokedFormulator

def flushRevokedFormulatorMap (height : UInt32) : Script Acc Ev (SortedMap Address Address) := do
  let bs ← processData p.pid (toRevokedFormulatorCountKey height)
  if bs.length > 0 then
    let revoked ← (List.range (uint32Of bs).toNat).foldlM (p.flushRevokedFormulator height) .empty
    setProcessData p.pid (toRevokedFormulatorCountKey height) []
    return revoked
  else return .empty

def returnStaking (hyper : Address) (stakingAmount : Int) (entry : Address × Int) :
    Script Acc Ev Int := do
  let (staker, am) := entry
  if am = 0 then fail .invalidStakingAddress
  else if stakingAmount < am then fail .criticalStakingAmount
  else
    let _ ← updateAccount hyper
      (FormulatorCast.change fun fr => { fr with stakingAmount := stakingAmount - am })
    p.vault.addBalance staker am
    return stakingAmount - am

def inherit (fr : FormulatorAccount) (addr heritor : Address) : Script Acc Ev Unit := do
  if ← isAccount heritor then
    p.vault.addBalance heritor fr.amount
    let balance ← p.vault.balance addr
    p.vault.addBalance heritor balance
    p.vault.removeBalance addr
  else return ()

def returnStakings (orders : MapOrders) (fr : FormulatorAccount) (addr : Address) :
    Script Acc Ev Unit := do
  if fr.formulatorType = hyperFormulatorType then
    let amounts ← p.getStakingAmountMap addr
    let left ← (orders.arrange (.returned addr) amounts.eachAll).foldlM
      (p.returnStaking addr) fr.stakingAmount
    if left ≠ 0 then fail .criticalStakingAmount else return ()
  else return ()

def revokeFormulator (orders : MapOrders) (addr heritor : Address) : Script Acc Ev Unit := do
  let acc ← check (← account addr)
  match FormulatorCast.asFormulator acc with
  | none => fail .invalidAccountType
  | some fr =>
    p.inherit fr addr heritor
    p.returnStakings orders fr addr
    let acc ← check (← account addr)
    check (← deleteAccount acc)
    let height := (← env).targetHeight
    emitEvent (FormulatorEvents.revoked ⟨height, 65535, 0, addr⟩)

def flushUnstakingAmount (height : UInt32)
    (unstaked : SortedMap Address (SortedMap Address Int)) (i : Nat) :
    Script Acc Ev (SortedMap Address (SortedMap Address Int)) := do
  let bs ← processData p.pid (toUnstakingAmountReverseKey height (UInt32.ofNat i))
  let addr := Database.addressOf bs
  let mp ← check (← p.getUnstakingAmountMap addr height)
  setProcessData p.pid (toUnstakingAmountKey height addr) []
  setProcessData p.pid (toUnstakingAmountNumberKey height addr) []
  setProcessData p.pid (toUnstakingAmountReverseKey height (UInt32.ofNat i)) []
  return unstaked.put addr mp

def flushUnstakingAmountMap (height : UInt32) :
    Script Acc Ev (SortedMap Address (SortedMap Address Int)) := do
  let bs ← processData p.pid (toUnstakingAmountCountKey height)
  if bs.length > 0 then
    let unstaked ← (List.range (uint32Of bs).toNat).foldlM (p.flushUnstakingAmount height) .empty
    setProcessData p.pid (toUnstakingAmountCountKey height) []
    return unstaked
  else return .empty

def payUnstaked (height : UInt32) (addr : Address) (entry : Address × Int) :
    Script Acc Ev Unit := do
  let (hyper, am) := entry
  p.vault.addBalance addr am
  emitEvent (FormulatorEvents.unstaked ⟨height, 65535, 0, hyper, addr, am⟩)

def payRewardsIfDue (orders : MapOrders) (policy : RewardPolicy) : Script Acc Ev Unit := do
  let height := (← env).targetHeight
  let lastPaidHeight ← p.getLastPaidHeight
  if height ≥ lastPaidHeight + policy.payRewardEveryBlocks then
    p.payRewards orders policy lastPaidHeight
  else return ()

def paySchedules (orders : MapOrders) : Script Acc Ev Unit := do
  let height := (← env).targetHeight
  let revoked ← p.flushRevokedFormulatorMap height
  each revoked.eachAll fun entry => p.revokeFormulator orders entry.1 entry.2
  let unstaked ← p.flushUnstakingAmountMap height
  each unstaked.eachAll fun entry => each entry.2.eachAll (p.payUnstaked height entry.1)

def afterExecuteTransactions (orders : MapOrders) [PolicyCodecs] (generator : Address) :
    Script Acc Ev Unit := do
  p.addGenCount generator
  let policy ← p.getRewardPolicy
  p.payRewardsIfDue orders policy
  p.paySchedules orders

end Formulator

namespace Instances

scoped instance : FormulatorEvents PlainEvent where
  reward ev := ⟨ev.n, []⟩
  revoked ev := ⟨ev.n, []⟩
  unstaked ev := ⟨ev.n, []⟩

def asListed : MapOrders := ⟨fun _ entries => entries, fun _ _ => .refl _⟩

def someHyper (policy : ValidatorPolicy) : FormulatorAccount :=
  ⟨someAddress, someAddress.bytes, hyperFormulatorType, [9], [9], Amount.coin * 10, false, 0, 0, 0,
    0, policy⟩

def hyperChain (policy : ValidatorPolicy) (height : UInt32) : World ChainAccount PlainEvent :=
  ⟨⟨1, [], 1, height, [], 0⟩,
    Function.update (fun _ => .absent) someAddress (.present (.formulator (someHyper policy))),
    fun _ => none, fun _ _ _ => [], fun _ _ => [], [], fun _ _ _ => false, fun _ _ => false⟩

end Instances

end Fleta
