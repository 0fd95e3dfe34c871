import Fleta.RewardBounds
import Fleta.StakingConservation

/-!
# The bounds of a staking payout

The share of a staker in the stacked reward is split into the commission and what the staker
gets, and neither is negative. So the pots that a payout reaches only grow, by the floored
shares of the stacked reward.
-/

namespace Fleta

open Script AmountMap Shares Amount

variable {Acc Ev : Type}

namespace ValidatorPolicy

variable {policy : ValidatorPolicy} {rewardAmount : Int}

theorem commission_nonneg (policy : ValidatorPolicy) (nonneg : 0 ≤ rewardAmount) :
    0 ≤ policy.commission rewardAmount := by
  unfold commission
  split
  · exact Int.ediv_nonneg (mul_nonneg nonneg (Int.natCast_nonneg _)) (by decide)
  · exact le_refl 0

theorem commission_le (fair : policy.commissionRatio1000 ≤ 1000) (nonneg : 0 ≤ rewardAmount) :
    policy.commission rewardAmount ≤ rewardAmount := by
  unfold commission
  split
  · have ratio : (policy.commissionRatio1000.toNat : Int) ≤ 1000 := by
      exact_mod_cast UInt32.le_iff_toNat_le.mp fair
    apply Int.ediv_le_of_le_mul (by decide)
    exact mul_le_mul_of_nonneg_left ratio nonneg
  · exact nonneg

end ValidatorPolicy

namespace Formulator

section Grows

variable [PairsCodec]

/-- Every pot holds at least what it held, and together they hold `sum` more. -/
structure Grows (p : Formulator) (sum : Int) (w w' : World Acc Ev) : Prop where
  pots : ∀ pot, p.amount w pot ≤ p.amount w' pot
  total : ∑ pot, (p.amount w' pot - p.amount w pot) = sum

namespace Grows

variable {p : Formulator} {w w' w'' : World Acc Ev} {sum more am : Int} {pot : Pot}

theorem refl (w : World Acc Ev) : p.Grows 0 w w where
  pots _ := le_refl _
  total := by simp

theorem trans (first : p.Grows sum w w') (second : p.Grows more w' w'') :
    p.Grows (sum + more) w w'' where
  pots pot := (first.pots pot).trans (second.pots pot)
  total := by
    rw [← first.total, ← second.total, ← Finset.sum_add_distrib]
    apply Finset.sum_congr rfl
    intro pot _
    ring

theorem of_puts (nonneg : 0 ≤ am) (puts : p.Puts pot (p.amount w pot + am) w w') :
    p.Grows am w w' := by
  have changed : ∀ other, p.amount w' other = p.amount w other + if other = pot then am else 0 := by
    intro other
    have stored : ((p.amount w pot + am).natAbs : Int) = p.amount w pot + am :=
      Int.natAbs_of_nonneg (add_nonneg (p.amount_nonneg w pot) nonneg)
    rw [puts.amount, Function.update_apply, stored]
    split
    · rename_i same
      rw [same]
    · rw [add_zero]
  constructor
  · intro other
    rw [changed]
    split <;> linarith
  · simp only [changed, add_sub_cancel_left, Finset.sum_ite_eq', Finset.mem_univ, if_true]

end Grows

end Grows

variable [Account Acc] [Event Ev] [Base58] [PairsCodec]
  {join : World Acc Ev → World Acc Ev → World Acc Ev} (p : Formulator)

theorem addBalance_grows (addr : Address) (am : Int) (w : World Acc Ev) :
    (p.vault.addBalance addr am).Ends join w fun _ w' => p.Grows am w w' :=
  Vault.addBalance_ends fun nonneg => .of_puts nonneg (puts_balance addr _)

theorem addStakingAmount_grows (hyper staker : Address) {am : Int} (nonneg : 0 ≤ am)
    (w : World Acc Ev) :
    (p.addStakingAmount hyper staker am).Ends join w fun _ w' => p.Grows am w w' := by
  obtain ⟨mid, puts, runs⟩ := addStakingAmount_runs hyper staker am w
  exact .of_run runs (.of_puts nonneg puts)

variable {fr : FormulatorAccount}

section

variable (fair : fr.policy.commissionRatio1000 ≤ 1000)

include fair

theorem payStaker_ends
    {rate : Int} (rate_nonneg : 0 ≤ rate) (sums : Int × RewardEvent) {entry : Address × Int}
    (power_nonneg : 0 ≤ entry.2) (w : World Acc Ev) :
    (p.payStaker fr rate sums entry).Ends join w fun sums' w' =>
      ∃ paid, p.Grows paid w w' ∧
        sums'.1 + paid = sums.1 + share coin rate entry.2 ∧ sums.1 ≤ sums'.1 := by
  have share_nonneg := share_nonneg coin_pos.le rate_nonneg power_nonneg
  have commission_nonneg := fr.policy.commission_nonneg share_nonneg
  have commission_le := ValidatorPolicy.commission_le fair share_nonneg
  unfold payStaker
  dsimp only
  split
  · apply Ends.bind
    apply Ends.bind
    apply Ends.accountData
    apply Ends.pure
    split
    · apply Ends.bind
      apply (p.addStakingAmount_grows fr.address entry.1 (sub_nonneg.mpr commission_le) w).mono
      intro _ w' grows
      exact Ends.pure ⟨_, grows, by ring, by linarith⟩
    · apply Ends.bind
      apply (p.addBalance_grows entry.1 _ w).mono
      intro _ w' grows
      exact Ends.pure ⟨_, grows, by ring, by linarith⟩
  · rename_i zero
    have nothing := not_not.mp zero
    exact Ends.pure ⟨0, .refl w, by linarith, by linarith⟩

theorem payEach_ends
    {rate : Int} (rate_nonneg : 0 ≤ rate) (ev : RewardEvent) {powers : SortedMap Address Int}
    (nonneg : Nonneg powers) (w : World Acc Ev) :
    (powers.eachAll.foldlM (p.payStaker fr rate) (0, ev)).Ends join w fun sums' w' =>
      ∃ paid, p.Grows paid w w' ∧
        sums'.1 + paid = shares coin rate (amounts powers) ∧ 0 ≤ sums'.1 := by
  apply (Ends.foldlM (fun left (sums : Int × RewardEvent) w' =>
    (∀ entry ∈ left, 0 ≤ entry.2) ∧ ∃ paid, p.Grows paid w w' ∧
      sums.1 + paid + shares coin rate (left.map Prod.snd) =
        shares coin rate (amounts powers) ∧ 0 ≤ sums.1) _ _).mono
  · intro sums w' holds
    obtain ⟨_, paid, grows, same, positive⟩ := holds
    exact ⟨paid, grows, (add_zero _).symm.trans same, positive⟩
  · intro entry left sums mid holds
    obtain ⟨left_nonneg, paid, grows, same, positive⟩ := holds
    apply (p.payStaker_ends fair rate_nonneg sums (left_nonneg entry (by simp)) mid).mono
    intro sums' w' after
    obtain ⟨more, grows', same', larger⟩ := after
    refine ⟨fun other mem => left_nonneg other (by simp [mem]), paid + more,
      grows.trans grows', ?_, positive.trans larger⟩
    rw [← same, List.map_cons, shares, shares, List.map_cons, List.sum_cons]
    linarith
  · refine ⟨fun entry => nonneg.of_mem, 0, .refl w, ?_, le_refl 0⟩
    rw [amounts]
    ring

theorem payStakers_ends
    {stackReward : Int} (stacked : 0 ≤ stackReward) (ev : RewardEvent) (w : World Acc Ev) :
    (p.payStakers fr stackReward ev).Ends join w fun _ w' =>
      ∃ powers paid, (p.loadAmountMap fr.address tagStakingPowerMap).RunsTo join w powers w ∧
        Nonneg powers ∧ p.Grows paid w w' ∧
        paid = if total (w.existing powers) = 0 then 0 else
          shares coin (ratio coin stackReward (total (w.existing powers)))
            (amounts (w.existing powers)) := by
  apply Ends.bind
  rcases p.loadAmountMap_ends w fr.address tagStakingPowerMap with
    ⟨powers, w, loads, rfl, nonneg⟩ | fails
  · apply Ends.of_run loads
    apply Ends.bind
    apply Ends.of_run (existingPowers_runs _ _)
    dsimp only
    split
    · rename_i powered
      have existing := nonneg.existing w
      apply Ends.bind
      apply (p.payEach_ends fair (ratio_nonneg coin_pos.le stacked existing.total_nonneg) ev
        existing w).mono
      intro sums mid after
      obtain ⟨paid, grows, same, positive⟩ := after
      split
      · apply Ends.bind
        apply (p.addBalance_grows fr.address _ mid).mono
        intro _ w' more
        refine .pure ⟨powers, _, loads, nonneg, grows.trans more, ?_⟩
        rw [if_neg powered, ← same, add_comm]
      · rename_i zero
        refine .pure ⟨powers, paid, loads, nonneg, grows, ?_⟩
        rw [if_neg powered, ← same, not_not.mp zero, zero_add]
    · rename_i zero
      refine .pure ⟨powers, 0, loads, nonneg, .refl w, ?_⟩
      rw [if_pos (not_not.mp zero)]
  · exact .inr fails

end

/-- In a payout every pot gets a part that is not negative. The parts are together at most the
stacked reward, and short of it by less than the power of the stakers that exist, in coins,
and their number. -/
theorem payStakers_bounded {fr : FormulatorAccount} (fair : fr.policy.commissionRatio1000 ≤ 1000)
    {stackReward : Int} (stacked : 0 ≤ stackReward) {ev ev' : RewardEvent} {w w' : World Acc Ev}
    (pays : (p.payStakers fr stackReward ev).RunsTo join w ev' w') :
    ∃ powers, (p.loadAmountMap fr.address tagStakingPowerMap).RunsTo join w powers w ∧
      (∀ power ∈ amounts (w.existing powers),
        let reward := share coin
          (ratio coin stackReward (total (w.existing powers))) power
        0 ≤ fr.policy.commission reward ∧ 0 ≤ reward - fr.policy.commission reward) ∧
      (∀ pot, p.amount w pot ≤ p.amount w' pot) ∧
      let paid := ∑ pot, (p.amount w' pot - p.amount w pot)
      paid ≤ stackReward ∧ (total (w.existing powers) ≠ 0 → ((stackReward - paid : Int) : ℚ) <
          total (w.existing powers) / coin + (w.existing powers).len) := by
  obtain ⟨powers, paid, loads, nonneg, grows, same⟩ :=
    (p.payStakers_ends fair stacked ev w).of_runsTo pays
  have existing := nonneg.existing w
  refine ⟨powers, loads, ?_, grows.pots, ?_⟩
  · intro power mem
    obtain ⟨entry, listed, rfl⟩ := List.mem_map.mp mem
    have share_nonneg := share_nonneg coin_pos.le
      (ratio_nonneg coin_pos.le stacked existing.total_nonneg) (existing.of_mem listed)
    exact ⟨fr.policy.commission_nonneg share_nonneg,
      sub_nonneg.mpr (ValidatorPolicy.commission_le fair share_nonneg)⟩
  · rw [grows.total]
    by_cases powered : total (w.existing powers) = 0
    · rw [if_pos powered] at same
      rw [same]
      exact ⟨stacked, fun nonzero => absurd powered nonzero⟩
    · rw [if_neg powered] at same
      have weighted : 0 < total (w.existing powers) :=
        lt_of_le_of_ne existing.total_nonneg (Ne.symm powered)
      have bounded := bounded_of_shares weighted
        (by rw [amounts, List.length_map, SortedMap.length_eachAll]) same
      exact ⟨bounded.1, fun _ => bounded.2⟩

end Formulator

namespace Instances

open StakingInstances

def somePowers : SortedMap Address Int :=
  (SortedMap.empty.put stakerAddress coin).put (Address.new 0 3 0) coin

def stakerChain : World ChainAccount PlainEvent :=
  ((hyperChain ⟨100, 0, 1⟩ 1).stand stakerAddress
    (.present (.vault (.single ⟨stakerAddress, [], [7]⟩)))).setAccountData someAddress
      someProcess.pid Formulator.tagStakingPowerMap (marshal somePowers)

/-- Three coins are paid for the power of the one staker that exists. -/
theorem one_staker_paid : ∃ ev' w' powers,
    (someProcess.payStakers (someHyper ⟨100, 0, 1⟩) (coin * 3) (.start 1)).RunsTo World.commit
        stakerChain ev' w' ∧
      total (stakerChain.existing powers) ≠ 0 ∧
      ∑ pot, (someProcess.amount w' pot - someProcess.amount stakerChain pot) ≤ coin * 3 := by
  have fair : (someHyper ⟨100, 0, 1⟩).policy.commissionRatio1000 ≤ 1000 := by decide
  have stacked : 0 ≤ coin * 3 := by decide
  have passed : ((someProcess.payStakers (someHyper ⟨100, 0, 1⟩) (coin * 3) (.start 1))
      (fun _ => .done (.ok ())) |>.exec World.commit stakerChain).1 = .ok () := by decide +kernel
  have powered : ((someProcess.loadAmountMap someAddress Formulator.tagStakingPowerMap)
      (fun powers => .done (if total (stakerChain.existing powers) = 0 then .error .notExistAccount
        else .ok ())) |>.exec World.commit stakerChain).1 = .ok () := by decide +kernel
  obtain ⟨ev', w', pays, _⟩ :=
    (someProcess.payStakers_ends fair stacked (.start 1) stakerChain).of_ok (Prod.ext passed rfl)
  obtain ⟨powers, loads, _, _, bounded⟩ := someProcess.payStakers_bounded fair stacked pays
  refine ⟨ev', w', powers, pays, ?_, bounded.1⟩
  intro zero
  have told := congrArg Prod.fst (loads fun powers =>
    .done (if total (stakerChain.existing powers) = 0 then .error .notExistAccount else .ok ()))
  rw [zero, if_pos rfl] at told
  exact absurd (powered.symm.trans told) (by simp)

end Instances

end Fleta
