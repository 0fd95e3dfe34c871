import Fleta.HookRules

/-!
# What the parts of the hook write

The parts of a reward round write process data, balances, account data of their own and the
reward counts of formulators. The heights of the last payouts are written by a payout only,
so they are left out here: whatever relation the other writes keep to, the parts keep to it.
-/

namespace Fleta

open Script

variable {Acc Ev : Type}

namespace Formulator

/-- Process data that the hook may write: of the unstaked amounts nothing but empty values. -/
def HookWrites (p : Formulator) (pid : UInt8) (name value : Bytes) : Prop :=
  pid = p.pid → name.head? = some 6 → value = []

variable {p : Formulator}

theorem HookWrites.of_head {pid tag : UInt8} {name : Bytes}
    (starts : name.head? = some tag) (other : tag ≠ 6) (value : Bytes) :
    p.HookWrites pid name value := by
  intro _ six
  rw [starts] at six
  exact absurd (Option.some.inj six) other

theorem HookWrites.empty {pid : UInt8} {name : Bytes} :
    p.HookWrites pid name [] := fun _ _ => rfl

theorem HookWrites.of_vault (name value : Bytes) :
    p.HookWrites p.vault.pid name value := fun same => absurd same.symm p.distinct

variable [Account Acc] [SignedAccount Acc] [FormulatorCast Acc] [Event Ev] [Base58]

/-- The relation allows the writes of a reward round other than the height of a payout. -/
structure Admits (p : Formulator) (rel : World Acc Ev → World Acc Ev → Prop) : Prop where
  process : ∀ w pid name value, p.HookWrites pid name value → rel w (w.setProcessData pid name value)
  balance : ∀ w addr am, rel w (w.setBalance p.vault addr am)
  data : ∀ w addr name value, name ≠ tagLastStakingPaidHeight →
    rel w (w.setAccountData addr p.pid name value)
  counted : ∀ w addr, rel w (w.updateAccount addr
    (FormulatorCast.change fun fr => { fr with rewardCount := fr.rewardCount + 1 }))

namespace Admits

variable {join : World Acc Ev → World Acc Ev → World Acc Ev}
  {rel : World Acc Ev → World Acc Ev → Prop} {p : Formulator} (admits : p.Admits rel)

include admits

omit [Event Ev] [Base58] in
theorem staking (hyper : Address) : p.KeepsStaking rel hyper := by
  intro w name value starts
  apply admits.data
  intro same
  rw [same] at starts
  cases starts

theorem setProcessData {pid : UInt8} {name value : Bytes} (writes : p.HookWrites pid name value) :
    (Script.setProcessData pid name value : Script Acc Ev Unit).Keeps join rel :=
  Keeps.setProcessData fun w => admits.process w pid name value writes

variable (addr : Address)

theorem setAccountData {name : Bytes} (other : name ≠ tagLastStakingPaidHeight) (value : Bytes) :
    (Script.setAccountData addr p.pid name value : Script Acc Ev Unit).Keeps join rel :=
  Keeps.setAccountData fun w => admits.data w addr name value other

theorem addBalance (am : Int) : (p.vault.addBalance addr am : Script Acc Ev Unit).Keeps join rel :=
  Vault.addBalance_keeps (fun w am => admits.balance w addr am) am

variable [Std.Refl rel] [IsTrans (World Acc Ev) rel]

theorem addGenCount : (p.addGenCount addr : Script Acc Ev Unit).Keeps join rel := by
  have table : (p.generators : Index Acc Ev).Within join rel := by
    refine ⟨Keeps.processData p.pid, ?_⟩
    intro name value key
    apply admits.setProcessData
    rcases key with ⟨addr, rfl⟩ | ⟨num, rfl⟩ | rfl
    · exact .of_head rfl (by decide) _
    · exact .of_head rfl (by decide) _
    · exact .of_head rfl (by decide) _
  apply (table.add addr).bind
  intro _
  apply ((Keeps.processData _ _).map).bind
  intro count
  exact admits.setProcessData (.of_head rfl (by decide) _)

theorem crossStaker (hyper : Address) (prev : SortedMap Address Int)
    (maps : SortedMap Address Int × SortedMap Address Int) (entry : Address × Int) :
    (p.crossStaker hyper prev maps entry : Script Acc Ev _).Keeps join rel := by
  apply (Keeps.isAccount entry.1).bind
  intro present
  split
  · split
    · split <;> exact Keeps.pure _
    · exact Keeps.pure _
  · exact (subStakingAmount_keeps (admits.staking hyper) _ _).map

variable [PairsCodec] (orders : MapOrders) (policy : RewardPolicy)

theorem stakingRewardPower (hyper : Address) (genCount : UInt32) (stackReward : Option Int) :
    (p.stakingRewardPower orders policy hyper genCount stackReward : Script Acc Ev Int).Keeps
      join rel := by
  have last : ∀ result : SortedMap Address Int × Int, (do
      Script.setAccountData hyper p.pid tagStakingPowerMap (AmountMap.marshal result.1)
      return result.2 : Script Acc Ev Int).Keeps join rel :=
    fun result => (admits.setAccountData hyper (by decide) _).map
  apply (loadAmountMap_keeps hyper _).bind
  intro prev
  apply getStakingAmountMap_keeps.bind
  intro amounts
  apply (Keeps.foldlM (admits.crossStaker hyper prev) _ _).bind
  intro maps
  apply (admits.setAccountData hyper (by decide) _).bind
  intro _
  apply (loadAmountMap_keeps hyper _).bind
  intro powers
  dsimp only
  split
  · exact (Keeps.pure _).bind last
  · apply (existingPowers_keeps _).bind
    intro existing
    split <;> exact (Keeps.pure _).bind last

theorem gatherPower (round : Round) (entry : Address × UInt32) :
    (p.gatherPower orders policy round entry : Script Acc Ev Round).Keeps join rel := by
  apply (Keeps.isAccount entry.1).bind
  intro present
  split
  · apply (Keeps.account entry.1).bind
    intro found
    apply (Keeps.check found).bind
    intro acc
    split
    · exact Keeps.fail _
    · split
      · exact Keeps.pure _
      · apply (Keeps.updateAccount fun w => admits.counted w entry.1).bind
        intro _
        split
        · exact Keeps.fail _
        · split
          · exact (admits.stakingRewardPower orders policy _ _ _).map
          · exact Keeps.pure _
  · exact Keeps.pure _

theorem gather : (p.gather orders policy : Script Acc Ev Round).Keeps join rel := by
  apply Keeps.env.bind
  intro env
  apply (flushGenCountMap_keeps fun w name value starts =>
    admits.process w p.pid name value (.of_head starts (by decide) value)).bind
  intro counts
  apply (Keeps.processData _ _).bind
  intro bs
  split
  · exact (Keeps.check _).bind fun _ => Keeps.foldlM (admits.gatherPower orders policy) _ _
  · exact (Keeps.pure _).bind fun _ => Keeps.foldlM (admits.gatherPower orders policy) _ _

section

omit [PairsCodec]

theorem subCollectedFee (am : Int) :
    (p.vault.subCollectedFee am : Script Acc Ev Unit).Keeps join rel := by
  apply ((Keeps.processData _ _).map).bind
  intro total
  split
  · exact Keeps.fail _
  · split <;> exact admits.setProcessData (.of_vault _ _)

theorem distribute (orders : MapOrders) (policy : RewardPolicy) (blocks : UInt32) (round : Round) :
    (p.distribute orders policy blocks round : Script Acc Ev Round).Keeps join rel := by
  unfold Formulator.distribute
  split
  · exact Keeps.pure _
  · apply ((Keeps.processData _ _).map).bind
    intro totalFee
    apply (admits.subCollectedFee totalFee).bind
    intro _
    apply Keeps.bind
    · apply Keeps.foldlM
      intro round entry
      unfold payReward
      dsimp only
      split
      · exact (admits.addBalance _ _).map
      · exact Keeps.pure _
    · intro round'
      apply Keeps.foldlM
      intro round entry
      apply (Keeps.isAccount entry.1).bind
      intro present
      split <;> exact Keeps.pure _

theorem payStaker (fr : FormulatorAccount) (rate : Int) (sums : Int × RewardEvent)
    (entry : Address × Int) :
    (p.payStaker fr rate sums entry : Script Acc Ev _).Keeps join rel := by
  unfold Formulator.payStaker
  dsimp only
  split
  · apply ((Keeps.accountData _ _ _).map).bind
    intro auto
    split
    · exact (addStakingAmount_keeps (admits.staking _) _ _).map
    · exact (admits.addBalance _ _).map
  · exact Keeps.pure _

end

theorem payStakers (fr : FormulatorAccount) (stackReward : Int) (ev : RewardEvent) :
    (p.payStakers fr stackReward ev : Script Acc Ev RewardEvent).Keeps join rel := by
  apply (loadAmountMap_keeps _ _).bind
  intro powers
  apply (existingPowers_keeps powers).bind
  intro existing
  dsimp only
  split
  · apply (Keeps.foldlM (admits.payStaker fr _) _ _).bind
    intro sums
    split
    · exact (admits.addBalance _ _).map
    · exact Keeps.pure _
  · exact Keeps.pure _

end Admits

/-- The relation also allows what is done for revoked formulators and unstaked amounts. -/
structure AdmitsHook (p : Formulator) (rel : World Acc Ev → World Acc Ev → Prop) : Prop
    extends p.Admits rel where
  returned : ∀ w addr am, rel w (w.updateAccount addr
    (FormulatorCast.change fun fr => { fr with stakingAmount := am }))
  deleted : ∀ w acc, rel w (w.deleteAccount acc).2
  emitted : ∀ w event, rel w (w.emitEvent event)

namespace AdmitsHook

variable {join : World Acc Ev → World Acc Ev → World Acc Ev}
  {rel : World Acc Ev → World Acc Ev → Prop} [Std.Refl rel] [IsTrans (World Acc Ev) rel]
  {p : Formulator} (admits : p.AdmitsHook rel)

include admits

variable (height : UInt32)

theorem flushRevokedFormulatorMap :
    (p.flushRevokedFormulatorMap height : Script Acc Ev _).Keeps join rel := by
  apply (Keeps.processData _ _).bind
  intro bs
  split
  · apply Keeps.bind
    · apply Keeps.foldlM
      intro revoked i
      apply (Keeps.processData _ _).bind
      intro bs
      apply (Keeps.processData _ _).bind
      intro heritor
      split
      · apply (admits.setAccountData _ (by decide) _).bind
        intro _
        apply (admits.setProcessData .empty).bind
        intro _
        apply (admits.setProcessData .empty).bind
        intro _
        exact (admits.setProcessData .empty).map
      · exact Keeps.fail _
    · intro revoked
      exact (admits.setProcessData .empty).map
  · exact Keeps.pure _

theorem returnStaking (hyper : Address) (stakingAmount : Int) (entry : Address × Int) :
    (p.returnStaking hyper stakingAmount entry : Script Acc Ev Int).Keeps join rel := by
  unfold Formulator.returnStaking
  dsimp only
  split
  · exact Keeps.fail _
  · split
    · exact Keeps.fail _
    · apply (Keeps.updateAccount fun w => admits.returned w hyper _).bind
      intro _
      exact (admits.addBalance _ _).map

theorem inherit (fr : FormulatorAccount) (addr heritor : Address) :
    (p.inherit fr addr heritor : Script Acc Ev Unit).Keeps join rel := by
  apply (Keeps.isAccount heritor).bind
  intro present
  split
  · apply (admits.addBalance _ _).bind
    intro _
    apply ((Keeps.accountData _ _ _).map).bind
    intro balance
    apply (admits.addBalance _ _).bind
    intro _
    exact .setAccountData fun w => admits.balance w addr 0
  · exact .pure _

variable (orders : MapOrders)

theorem returnStakings (fr : FormulatorAccount) (addr : Address) :
    (p.returnStakings orders fr addr : Script Acc Ev Unit).Keeps join rel := by
  unfold Formulator.returnStakings
  split
  · apply getStakingAmountMap_keeps.bind
    intro amounts
    apply (Keeps.foldlM (admits.returnStaking addr) _ _).bind
    intro left
    split
    · exact Keeps.fail _
    · exact Keeps.pure _
  · exact Keeps.pure _

variable [PairsCodec]

theorem flushUnstakingAmountMap :
    (p.flushUnstakingAmountMap height : Script Acc Ev _).Keeps join rel := by
  apply (Keeps.processData _ _).bind
  intro bs
  split
  · apply Keeps.bind
    · apply Keeps.foldlM
      intro unstaked i
      apply (Keeps.processData _ _).bind
      intro bs
      apply ((Keeps.processData _ _).map).bind
      intro mp
      apply (Keeps.check mp).bind
      intro mp
      apply (admits.setProcessData .empty).bind
      intro _
      apply (admits.setProcessData .empty).bind
      intro _
      exact (admits.setProcessData .empty).map
    · intro unstaked
      exact (admits.setProcessData .empty).map
  · exact .pure _

variable [FormulatorEvents Ev]

omit [PairsCodec] in
theorem revokeFormulator (addr heritor : Address) :
    (p.revokeFormulator orders addr heritor : Script Acc Ev Unit).Keeps join rel := by
  apply (Keeps.account addr).bind
  intro found
  apply (Keeps.check found).bind
  intro acc
  split
  · exact Keeps.fail _
  · apply (admits.inherit _ addr heritor).bind
    intro _
    apply (admits.returnStakings orders _ addr).bind
    intro _
    apply (Keeps.account addr).bind
    intro found
    apply (Keeps.check found).bind
    intro acc
    apply (Keeps.deleteAccount fun w => admits.deleted w acc).bind
    intro deleted
    apply (Keeps.check deleted).bind
    intro _
    apply Keeps.env.bind
    intro env
    exact Keeps.emitEvent fun w => admits.emitted w _

theorem paySchedules : (p.paySchedules orders : Script Acc Ev Unit).Keeps join rel := by
  apply Keeps.env.bind
  intro env
  apply (admits.flushRevokedFormulatorMap _).bind
  intro revoked
  apply Keeps.bind
  · apply Keeps.each
    intro entry
    exact admits.revokeFormulator orders entry.1 entry.2
  · intro _
    apply (admits.flushUnstakingAmountMap _).bind
    intro unstaked
    apply Keeps.each
    intro entry
    apply Keeps.each
    intro paid
    apply (admits.addBalance _ _).bind
    intro _
    exact Keeps.emitEvent fun w => admits.emitted w _

end AdmitsHook

/-- The relation allows everything that the hook writes. -/
structure AdmitsBlock (p : Formulator) (rel : World Acc Ev → World Acc Ev → Prop) : Prop
    extends p.AdmitsHook rel where
  paid : ∀ w addr value, rel w (w.setAccountData addr p.pid tagLastStakingPaidHeight value)

namespace AdmitsBlock

variable {join : World Acc Ev → World Acc Ev → World Acc Ev}
  {rel : World Acc Ev → World Acc Ev → Prop} [Std.Refl rel] [IsTrans (World Acc Ev) rel]
  [PairsCodec] {p : Formulator} (admits : p.AdmitsBlock rel)

include admits

theorem payOut (policy : RewardPolicy) (height : UInt32) (round : Round) (fr : FormulatorAccount) :
    (p.payOut policy height round fr : Script Acc Ev Round).Keeps join rel := by
  unfold Formulator.payOut
  split
  · exact Keeps.pure _
  · apply ((Keeps.accountData _ _ _).map).bind
    intro lastStakingPaidHeight
    split
    · apply (admits.payStakers fr _ _).bind
      intro ev
      apply (admits.setAccountData fr.address (by decide) []).bind
      intro _
      apply Keeps.bind
      · exact .setAccountData fun w => admits.paid w fr.address _
      · exact fun _ => .pure _
    · exact .pure _

variable [FormulatorEvents Ev] (orders : MapOrders)

theorem payRewards (policy : RewardPolicy) (lastPaidHeight : UInt32) :
    (p.payRewards orders policy lastPaidHeight : Script Acc Ev Unit).Keeps join rel := by
  apply Keeps.env.bind
  intro env
  apply (admits.gather orders policy).bind
  intro round
  apply (admits.distribute orders policy _ round).bind
  intro round
  apply Keeps.env.bind
  intro env
  apply (Keeps.foldlM (admits.payOut policy _) _ _).bind
  intro round
  apply (admits.setProcessData (.of_head rfl (by decide) _)).bind
  intro _
  apply Keeps.bind
  · exact Keeps.emitEvent fun w => admits.emitted w _
  · exact fun _ => admits.setProcessData (.of_head rfl (by decide) _)

theorem afterExecuteTransactions [PolicyCodecs] (generator : Address) :
    (p.afterExecuteTransactions orders generator : Script Acc Ev Unit).Keeps join rel := by
  apply (admits.addGenCount generator).bind
  intro _
  apply ((Keeps.processData _ _).bind fun _ => Keeps.check _).bind
  intro policy
  apply Keeps.bind
  · apply Keeps.env.bind
    intro env
    apply ((Keeps.processData _ _).map).bind
    intro lastPaidHeight
    split
    · exact admits.payRewards orders policy _
    · exact .pure _
  · exact fun _ => admits.paySchedules orders

end AdmitsBlock

end Formulator

end Fleta
