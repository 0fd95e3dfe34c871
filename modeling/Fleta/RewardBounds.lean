import Fleta.HookRules
import Fleta.StakingInstances
import Mathlib.Algebra.Order.BigOperators.Group.List

/-!
# The bounds of a reward round

The powers of a round add up to the power sum, so the parts that are credited and stacked
are floored shares of the reward: together at most the reward, and short of it by less than
the power sum in coins and one for every part.
-/

namespace Fleta

open Script AmountMap SortedMap Amount World

variable {Acc Ev : Type}

namespace AmountMap

def amounts (mp : SortedMap Address Int) : List Int := mp.eachAll.map Prod.snd

def total (mp : SortedMap Address Int) : Int := (amounts mp).sum

def Nonneg (mp : SortedMap Address Int) : Prop := ∀ addr am, mp.get addr = some am → 0 ≤ am

variable {mp : SortedMap Address Int} {addr : Address} {am : Int}

theorem total_put_absent (am : Int) (absent : mp.get addr = none) :
    total (mp.put addr am) = total mp + am := by
  have listed := ((eachAll_put_absent am absent).map Prod.snd).sum_eq
  rw [total, amounts, listed, List.map_cons, List.sum_cons, add_comm]
  rfl

theorem total_delete {old : Int} (found : mp.get addr = some old) :
    total mp = old + total (mp.delete addr) := by
  have listed := ((eachAll_delete found).map Prod.snd).sum_eq
  rw [total, amounts, listed, List.map_cons, List.sum_cons]
  rfl

theorem total_addAmount (addr : Address) (am : Int) (mp : SortedMap Address Int) :
    total (addAmount addr am mp) = total mp + am := by
  unfold addAmount
  split
  · rename_i old found
    have again : (mp.put addr (old + am)).delete addr = mp.delete addr := by
      apply ext_get
      intro other
      rw [get_delete, get_delete, get_put]
      split <;> rfl
    rw [total_delete (get_put_self mp addr (old + am)), again, total_delete found]
    ring
  · rename_i absent
    exact total_put_absent am absent

namespace Nonneg

theorem empty : Nonneg .empty := by
  intro addr am found
  simp at found

variable (nonneg : Nonneg mp)

include nonneg

theorem put (addr : Address) (am_nonneg : 0 ≤ am) : Nonneg (mp.put addr am) :=
  forall_get_put nonneg am_nonneg

theorem delete (addr : Address) : Nonneg (mp.delete addr) :=
  fun other held found => nonneg other held (get_of_get_delete found)

theorem addAmount (addr : Address) (am_nonneg : 0 ≤ am) :
    Nonneg (AmountMap.addAmount addr am mp) := by
  unfold AmountMap.addAmount
  split
  · rename_i old found
    exact nonneg.put addr (add_nonneg (nonneg addr old found) am_nonneg)
  · exact nonneg.put addr am_nonneg

theorem of_mem {entry : Address × Int} (mem : entry ∈ mp.eachAll) : 0 ≤ entry.2 :=
  nonneg entry.1 entry.2 ((mem_eachAll mp _ _).mp mem)

theorem total_nonneg : 0 ≤ total mp := by
  apply List.sum_nonneg
  intro am mem
  obtain ⟨entry, listed, rfl⟩ := List.mem_map.mp mem
  exact nonneg.of_mem listed

end Nonneg

end AmountMap

theorem rewardPower_nonneg {am : Int} (nonneg : 0 ≤ am) (genCount efficiency1000 : UInt32) :
    0 ≤ rewardPower am genCount efficiency1000 :=
  Int.ediv_nonneg (mul_nonneg (mul_nonneg nonneg (Int.natCast_nonneg _)) (Int.natCast_nonneg _))
    (by decide)

theorem coin_pos : 0 < coin := by decide

namespace World

noncomputable def balances (v : Vault) (w : World Acc Ev) : Int := ∑ addr : Address, w.balance v addr

theorem balances_setBalance (v : Vault) (w : World Acc Ev) (addr : Address) {am : Int}
    (nonneg : 0 ≤ am) :
    (w.setBalance v addr am).balances v = w.balances v + (am - w.balance v addr) := by
  have moved : w.Moved v {addr} (w.balance v addr - am) (w.setBalance v addr am) :=
    Moved.setBalance (by simp) nonneg
  have same := moved.funds
  simp only [funds, collectedFee_setBalance] at same
  rw [balances, balances]
  omega

end World

def World.SameStanding (w w' : World Acc Ev) : Prop := w'.standing = w.standing

instance : Std.Refl (World.SameStanding : World Acc Ev → World Acc Ev → Prop) where
  refl _ := rfl

instance : IsTrans (World Acc Ev) World.SameStanding where
  trans _ _ _ first second := .trans second first

/-- The powers of the stakers that exist. -/
def World.existing (w : World Acc Ev) (powers : SortedMap Address Int) : SortedMap Address Int :=
  ((powers.eachAll.filter fun entry => !w.isPresent entry.1).map Prod.fst).foldl
    (fun powers staker => powers.delete staker) powers

variable (w : World Acc Ev)

theorem World.get_existing (powers : SortedMap Address Int) (addr : Address) :
    (w.existing powers).get addr = if w.isPresent addr then powers.get addr else none := by
  rw [existing, get_foldl_delete]
  cases present : w.isPresent addr with
  | true =>
    rw [if_neg, if_pos rfl]
    intro mem
    obtain ⟨entry, listed, rfl⟩ := List.mem_map.mp mem
    simp [present] at listed
  | false =>
    cases found : powers.get addr with
    | none => simp
    | some power =>
      rw [if_pos, if_neg (by simp)]
      refine List.mem_map.mpr ⟨(addr, power), List.mem_filter.mpr ⟨?_, ?_⟩, rfl⟩
      · exact (mem_eachAll _ _ _).mpr found
      · simp [present]

theorem World.total_existing (powers : SortedMap Address Int) :
    total (w.existing powers) =
      ((powers.eachAll.filter fun entry => w.isPresent entry.1).map Prod.snd).sum := by
  have listed : (w.existing powers).eachAll.Perm
      (powers.eachAll.filter fun entry => w.isPresent entry.1) := by
    apply eachAll_perm
    · exact (each_all_keys_nodup powers).sublist (List.filter_sublist.map _)
    · intro addr power
      rw [get_existing, List.mem_filter, mem_eachAll]
      cases w.isPresent addr <;> simp
  exact (listed.map Prod.snd).sum_eq

theorem AmountMap.Nonneg.existing {powers : SortedMap Address Int} (nonneg : Nonneg powers)
    (w : World Acc Ev) : Nonneg (w.existing powers) := by
  intro addr power found
  rw [get_existing] at found
  split at found
  · exact nonneg addr power found
  · cases found

variable {entries : List (Address × Int)}

theorem foldl_rewardPower_nonneg (genCount efficiency1000 : UInt32) {part : Int → Int}
    (part_nonneg : ∀ am, 0 ≤ am → 0 ≤ part am)
    (nonneg : ∀ entry ∈ entries, 0 ≤ entry.2) {power : Int} (power_nonneg : 0 ≤ power) :
    0 ≤ entries.foldl
      (fun power entry => power + rewardPower (part entry.2) genCount efficiency1000) power := by
  induction entries generalizing power with
  | nil => exact power_nonneg
  | cons entry entries ih =>
    apply ih
    · intro other mem
      exact nonneg other (List.mem_cons_of_mem _ mem)
    · apply add_nonneg power_nonneg
      apply rewardPower_nonneg
      exact part_nonneg _ (nonneg entry List.mem_cons_self)

theorem foldl_addAmount_nonneg
    (nonneg : ∀ entry ∈ entries, 0 ≤ entry.2) {powers : SortedMap Address Int}
    (powers_nonneg : Nonneg powers) :
    Nonneg (entries.foldl (fun powers entry => addAmount entry.1 entry.2 powers) powers) := by
  induction entries generalizing powers with
  | nil => exact powers_nonneg
  | cons entry entries ih =>
    apply ih
    · intro other mem
      exact nonneg other (List.mem_cons_of_mem _ mem)
    · exact powers_nonneg.addAmount _ (nonneg entry List.mem_cons_self)

namespace Formulator

variable [Account Acc] [Event Ev] [Base58] {join : World Acc Ev → World Acc Ev → World Acc Ev}
  (p : Formulator) (w : World Acc Ev)

theorem sumPower_runs (entries : List (Address × Int)) (sum : Int) (deleteds : List Address) :
    (entries.foldlM sumPower (sum, deleteds)).RunsTo join w
      (sum + ((entries.filter fun entry => w.isPresent entry.1).map Prod.snd).sum,
        deleteds ++ (entries.filter fun entry => !w.isPresent entry.1).map Prod.fst) w := by
  induction entries generalizing sum deleteds with
  | nil =>
    simp only [List.filter_nil, List.map_nil, List.sum_nil, add_zero, List.append_nil]
    exact .pure _ w
  | cons entry entries ih =>
    rw [List.foldlM_cons]
    have step : (sumPower (sum, deleteds) entry).RunsTo join w
        (if w.isPresent entry.1 then (sum + entry.2, deleteds)
          else (sum, deleteds ++ [entry.1])) w := by
      apply (isAccount_runs w entry.1).bind
      cases w.isPresent entry.1 <;> exact .pure _ w
    apply step.bind
    cases present : w.isPresent entry.1 with
    | true =>
      simpa [present, add_assoc] using ih (sum + entry.2) deleteds
    | false =>
      simpa [present] using ih sum (deleteds ++ [entry.1])

theorem existingPowers_runs (powers : SortedMap Address Int) :
    (existingPowers powers).RunsTo join w (total (w.existing powers), w.existing powers) w := by
  apply (sumPower_runs w powers.eachAll 0 []).bind
  rw [zero_add, List.nil_append, ← total_existing]
  exact RunsTo.pure _ w

variable (hyper : Address)

theorem getStakingAmountMap_ends :
    (p.getStakingAmountMap hyper).Ends join w fun amounts w' => w' = w ∧ Nonneg amounts := by
  apply Ends.bind
  apply Ends.accountData
  split
  · apply Ends.foldlM fun _ amounts w' => w' = w ∧ Nonneg amounts
    · rintro i items amounts _ ⟨rfl, nonneg⟩
      apply Ends.bind
      apply Ends.accountData
      apply Ends.bind
      apply Ends.bind
      apply Ends.accountData
      apply Ends.pure
      apply Ends.pure
      refine ⟨rfl, nonneg.put _ ?_⟩
      rw [ofStored_eq]
      exact ofBytes_nonneg _
    · exact ⟨rfl, .empty⟩
  · exact Ends.pure ⟨rfl, .empty⟩

theorem crossStaker_ends {prev current cross : SortedMap Address Int}
    (prev_nonneg : Nonneg prev) (cross_nonneg : Nonneg cross) {entry : Address × Int}
    (entry_nonneg : 0 ≤ entry.2) :
    (p.crossStaker hyper prev (current, cross) entry).Ends join w fun maps w' =>
      w.SameStanding w' ∧ Nonneg maps.2 := by
  apply Ends.bind
  apply Ends.isAccount
  split
  · split
    · rename_i prevAm found
      split
      · apply Ends.pure
        refine ⟨rfl, cross_nonneg.put _ ?_⟩
        split
        · exact entry_nonneg
        · exact prev_nonneg _ _ found
      · exact Ends.pure ⟨rfl, cross_nonneg⟩
    · exact Ends.pure ⟨rfl, cross_nonneg⟩
  · apply Ends.bind
    have writes : p.KeepsStaking (World.SameStanding : World Acc Ev → World Acc Ev → Prop) hyper :=
      fun _ _ _ _ => rfl
    apply (subStakingAmount_keeps writes entry.1 entry.2 w).mono
    intro _ w' same
    exact Ends.pure ⟨same, cross_nonneg⟩

theorem crossStakers_ends {prev : SortedMap Address Int}
    (prev_nonneg : Nonneg prev) {entries : List (Address × Int)}
    (nonneg : ∀ entry ∈ entries, 0 ≤ entry.2) :
    (entries.foldlM (p.crossStaker hyper prev) (.empty, .empty)).Ends join w fun maps w' =>
      w.SameStanding w' ∧ Nonneg maps.2 := by
  apply (Ends.foldlM (fun items maps w' =>
    (∀ entry ∈ items, 0 ≤ entry.2) ∧ w.SameStanding w' ∧ Nonneg maps.2) _ _).mono
  · intro maps w' holds
    exact holds.2
  · intro entry items maps mid holds
    obtain ⟨left, same, cross_nonneg⟩ := holds
    apply (p.crossStaker_ends mid hyper prev_nonneg cross_nonneg (left entry (by simp))).mono
    intro maps' w' after
    refine ⟨?_, Eq.trans after.1 same, after.2⟩
    intro other mem
    exact left other (by simp [mem])
  · exact ⟨nonneg, rfl, .empty⟩

variable [PairsCodec]

theorem loadAmountMap_ends (addr : Address) (name : Bytes) :
    (p.loadAmountMap addr name).Ends join w fun mp w' => w' = w ∧ Nonneg mp := by
  apply Ends.bind
  apply Ends.accountData
  split
  · apply Ends.check
    intro mp decoded
    exact ⟨rfl, fun _ _ found => unmarshal_nonneg decoded found⟩
  · exact Ends.pure ⟨rfl, .empty⟩

theorem stakingRewardPower_ends (orders : MapOrders) (policy : RewardPolicy) (hyper : Address)
    (genCount : UInt32) {stackReward : Option Int} (reward_nonneg : ∀ am ∈ stackReward, 0 ≤ am) :
    (p.stakingRewardPower orders policy hyper genCount stackReward).Ends join w fun power w' =>
      w.SameStanding w' ∧ 0 ≤ power := by
  apply Ends.bind
  apply (p.loadAmountMap_ends w hyper tagStakingAmountMap).mono
  rintro prev w ⟨rfl, prev_nonneg⟩
  apply Ends.bind
  apply (p.getStakingAmountMap_ends w hyper).mono
  rintro amounts w ⟨rfl, amounts_nonneg⟩
  have entries_nonneg : ∀ entry ∈ orders.arrange (.staked hyper) amounts.eachAll, 0 ≤ entry.2 :=
    fun entry mem => amounts_nonneg.of_mem ((orders.perm _ _).mem_iff.mp mem)
  apply Ends.bind
  apply (p.crossStakers_ends w hyper prev_nonneg entries_nonneg).mono
  rintro ⟨current, cross⟩ mid ⟨same, cross_nonneg⟩
  apply Ends.bind
  apply Ends.setAccountData
  apply Ends.bind
  apply (p.loadAmountMap_ends _ hyper tagStakingPowerMap).mono
  rintro powers _ ⟨rfl, powers_nonneg⟩
  have crossed_nonneg : ∀ entry ∈ orders.arrange (.crossed hyper) cross.eachAll, 0 ≤ entry.2 :=
    fun entry mem => cross_nonneg.of_mem ((orders.perm _ _).mem_iff.mp mem)
  have grown := foldl_addAmount_nonneg crossed_nonneg powers_nonneg
  have power_nonneg := foldl_rewardPower_nonneg genCount policy.stakingEfficiency1000
    (fun _ nonneg => nonneg) crossed_nonneg (le_refl 0)
  have stored : ∀ (result : SortedMap Address Int × Int) (mid : World Acc Ev), w.SameStanding mid →
      0 ≤ result.2 → (do
        setAccountData hyper p.pid tagStakingPowerMap (marshal result.1)
        return result.2 : Script Acc Ev Int).Ends join mid fun power w' =>
          w.SameStanding w' ∧ 0 ≤ power := by
    intro result mid same nonneg
    apply Ends.bind
    apply Ends.setAccountData
    exact .pure ⟨same, nonneg⟩
  dsimp only
  split
  · exact .bind (.pure (stored _ _ same power_nonneg))
  · rename_i am
    apply Ends.bind
    apply Ends.of_run (existingPowers_runs _ _)
    split
    · exact Ends.bind (Ends.pure (stored _ _ same power_nonneg))
    · have rest := grown.existing
        (mid.setAccountData hyper p.pid tagStakingAmountMap (marshal current))
      apply Ends.bind
      apply Ends.pure
      apply stored
      · exact same
      · apply foldl_rewardPower_nonneg _ _ _ (fun entry => rest.of_mem) power_nonneg
        intro own own_nonneg
        exact Shares.share_nonneg coin_pos.le
          (Shares.ratio_nonneg coin_pos.le (reward_nonneg am rfl) rest.total_nonneg) own_nonneg

end Formulator

section Gather

variable [Account Acc] [SignedAccount Acc] [FormulatorCast Acc]

open FormulatorCast

def World.AmountsNonneg (w : World Acc Ev) : Prop :=
  ∀ addr fr, w.standing addr = .present (ofFormulator fr) → 0 ≤ fr.amount

theorem World.AmountsNonneg.updateAccount {w : World Acc Ev} (nonneg : w.AmountsNonneg)
    (gen : Address) {update : FormulatorAccount → FormulatorAccount}
    (same : ∀ fr, (update fr).amount = fr.amount) :
    (w.updateAccount gen (change update)).AmountsNonneg := by
  intro addr fr present
  unfold World.updateAccount at present
  split at present
  · rename_i acc found
    by_cases here : addr = gen
    · subst here
      simp only [stand, Function.update_self, Standing.present.injEq, change] at present
      split at present
      · rename_i old cast
        have equal : update old = fr := by
          have casts := congrArg asFormulator present
          simpa using casts
        rw [← equal, same]
        rw [(asFormulator_eq_some acc old).mp cast] at found
        exact nonneg addr old found
      · rename_i cast
        rw [present, asFormulator_ofFormulator] at cast
        cases cast
    · simp only [stand, Function.update_of_ne here] at present
      exact nonneg addr fr present
  · exact nonneg addr fr present

structure Round.Gathered (round : Round) (w : World Acc Ev) : Prop where
  sum : round.rewardPowerSum = total round.rewardPowerMap + total round.stakingRewardPowerMap
  rewards : Nonneg round.rewardPowerMap
  stakings : Nonneg round.stakingRewardPowerMap
  stacked : Nonneg round.stackRewardMap
  amounts : w.AmountsNonneg
  present : ∀ gen am, round.stakingRewardPowerMap.get gen = some am → w.isPresent gen = true

def Round.powers (round : Round) : List Int :=
  amounts round.rewardPowerMap ++ amounts round.stakingRewardPowerMap

theorem Round.length_powers (round : Round) : round.powers.length =
    round.rewardPowerMap.len + round.stakingRewardPowerMap.len := by
  simp [Round.powers, amounts]

def Round.Lacks (round : Round) (gen : Address) : Prop :=
  round.rewardPowerMap.get gen = none ∧ round.stakingRewardPowerMap.get gen = none

namespace Round.Gathered

variable {round : Round} {w w' : World Acc Ev}

theorem start (height : UInt32) {stackRewardMap : SortedMap Address Int}
    (stacked : Nonneg stackRewardMap) (amounts : w.AmountsNonneg) :
    (Round.start height stackRewardMap).Gathered w where
  sum := rfl
  rewards := .empty
  stakings := .empty
  stacked := stacked
  amounts := amounts
  present gen am found := by simp [Round.start] at found

variable (gathered : round.Gathered w)

include gathered

theorem of_standing (same : w.SameStanding w') : round.Gathered w' := by
  refine { gathered with amounts := ?_, present := ?_ }
  · intro addr fr
    rw [show w'.standing = w.standing from same]
    exact gathered.amounts addr fr
  · intro gen am found
    rw [isPresent_of_standing same]
    exact gathered.present gen am found

theorem ofStacked {stackRewardMap : SortedMap Address Int}
    (stacked : Nonneg stackRewardMap) (event : RewardEvent) :
    { round with stackRewardMap := stackRewardMap, event := event : Round }.Gathered w :=
  { gathered with stacked := stacked }

theorem updateAccount (gen : Address)
    {update : FormulatorAccount → FormulatorAccount} (same : ∀ fr, (update fr).amount = fr.amount) :
    round.Gathered (w.updateAccount gen (change update)) := by
  refine { gathered with amounts := gathered.amounts.updateAccount gen same, present := ?_ }
  rw [isPresent_updateAccount]
  exact gathered.present

theorem addReward {gen : Address} {am : Int}
    (absent : round.rewardPowerMap.get gen = none) (nonneg : 0 ≤ am) :
    { round with
      rewardPowerSum := round.rewardPowerSum + am
      rewardPowerMap := round.rewardPowerMap.put gen am : Round }.Gathered w := by
  refine { gathered with sum := ?_, rewards := gathered.rewards.put gen nonneg }
  rw [total_put_absent am absent, gathered.sum]
  ring

theorem addStaking {gen : Address} {am : Int}
    (hypers : List FormulatorAccount) (absent : round.stakingRewardPowerMap.get gen = none)
    (nonneg : 0 ≤ am) (present : w.isPresent gen = true) :
    { round with
      rewardPowerSum := round.rewardPowerSum + am
      stakingRewardPowerMap := round.stakingRewardPowerMap.put gen am
      hypers := hypers : Round }.Gathered w := by
  refine { gathered with
    sum := ?_
    stakings := gathered.stakings.put gen nonneg
    present := forall_get_put gathered.present present }
  rw [total_put_absent am absent, gathered.sum]
  ring

theorem powers_sum : round.powers.sum = round.rewardPowerSum := by
  rw [Round.powers, List.sum_append, gathered.sum]
  rfl

theorem power_pos (powered : round.rewardPowerSum ≠ 0) : 0 < round.rewardPowerSum := by
  apply lt_of_le_of_ne _ powered.symm
  rw [gathered.sum]
  exact add_nonneg gathered.rewards.total_nonneg gathered.stakings.total_nonneg

end Round.Gathered

namespace Formulator

variable [Event Ev] [Base58] [PairsCodec] {join : World Acc Ev → World Acc Ev → World Acc Ev}
  (p : Formulator) (orders : MapOrders) (policy : RewardPolicy)

theorem gatherPower_ends {round : Round}
    {entry : Address × UInt32} {w : World Acc Ev} (gathered : round.Gathered w)
    (lacks : round.Lacks entry.1) :
    (p.gatherPower orders policy round entry).Ends join w fun round' w' =>
      round'.Gathered w' ∧ ∀ other, other ≠ entry.1 → round.Lacks other → round'.Lacks other := by
  obtain ⟨gen, genCount⟩ := entry
  apply Ends.bind
  apply Ends.isAccount
  split
  · rename_i present
    apply Ends.bind
    apply Ends.account
    apply Ends.bind
    apply Ends.check
    intro acc found
    split
    · exact Ends.fail _
    · rename_i fr cast
      split
      · exact Ends.pure ⟨gathered.ofStacked gathered.stacked _, fun other _ lacks => lacks⟩
      · have held : w.standing gen = .present (ofFormulator fr) := by
          rw [account_ok found, (asFormulator_eq_some acc fr).mp cast]
        have counted : round.Gathered (w.updateAccount gen
            (change fun fr => { fr with rewardCount := fr.rewardCount + 1 })) :=
          gathered.updateAccount gen fun _ => rfl
        apply Ends.bind
        apply Ends.updateAccount
        split
        · exact Ends.fail _
        · rename_i efficiency1000 _
          have power_nonneg := rewardPower_nonneg (gathered.amounts gen fr held) genCount
            efficiency1000
          have added := counted.addReward lacks.1 power_nonneg
          split
          · apply Ends.bind
            apply (p.stakingRewardPower_ends _ orders policy fr.address genCount _).mono
            · intro power w' after
              have present' : w'.isPresent gen = true := by
                rw [isPresent_of_standing after.1, isPresent_updateAccount, present]
              have all := (added.of_standing after.1).addStaking (round.hypers ++ [fr]) lacks.2
                after.2 present'
              apply Ends.pure
              refine ⟨all.ofStacked gathered.stacked _, ?_⟩
              intro other different lacked
              exact ⟨(get_put_of_ne _ _ different.symm).trans lacked.1,
                (get_put_of_ne _ _ different.symm).trans lacked.2⟩
            · intro am stacked
              exact gathered.stacked _ _ stacked
          · apply Ends.pure
            refine ⟨added.ofStacked gathered.stacked _, ?_⟩
            intro other different lacked
            exact ⟨(get_put_of_ne _ _ different.symm).trans lacked.1, lacked.2⟩
  · exact Ends.pure ⟨gathered.ofStacked (gathered.stacked.delete gen) _, fun other _ lacks => lacks⟩

theorem gatherPowers_ends
    {entries : List (Address × UInt32)} (distinct : (entries.map Prod.fst).Nodup) {round : Round}
    {w : World Acc Ev} (gathered : round.Gathered w)
    (lacks : ∀ entry ∈ entries, round.Lacks entry.1) :
    (entries.foldlM (p.gatherPower orders policy) round).Ends join w Round.Gathered := by
  apply (Ends.foldlM (fun (left : List (Address × UInt32)) (round : Round) w =>
    (left.map Prod.fst).Nodup ∧ round.Gathered w ∧ ∀ entry ∈ left, round.Lacks entry.1) _ _).mono
  · intro round' w' holds
    exact holds.2.1
  · intro entry left round w holds
    obtain ⟨distinct, gathered, lacks⟩ := holds
    rw [List.map_cons, List.nodup_cons] at distinct
    apply (p.gatherPower_ends orders policy gathered (lacks entry (by simp))).mono
    intro round' w' after
    refine ⟨distinct.2, after.1, ?_⟩
    intro other mem
    apply after.2 other.1 _ (lacks other (by simp [mem]))
    intro same
    exact distinct.1 (same ▸ List.mem_map_of_mem mem)
  · exact ⟨distinct, gathered, lacks⟩

theorem gather_ends {w : World Acc Ev} (amounts : w.AmountsNonneg) :
    (p.gather orders policy).Ends join w Round.Gathered := by
  apply Ends.bind
  apply Ends.env
  have flushes : (p.flushGenCountMap : Script Acc Ev _).Keeps join World.SameStanding :=
    flushGenCountMap_keeps fun _ _ _ _ => rfl
  apply Ends.bind
  apply (flushes w).mono
  intro counts mid same
  apply Ends.bind
  apply Ends.processData
  have rest : ∀ stackRewardMap, Nonneg stackRewardMap →
      ((orders.arrange .counts counts.eachAll).foldlM (p.gatherPower orders policy)
        (Round.start w.env.targetHeight stackRewardMap)).Ends join mid Round.Gathered := by
    intro stackRewardMap stacked
    apply p.gatherPowers_ends orders policy
    · exact ((orders.perm _ _).map Prod.fst).nodup_iff.mpr (each_all_keys_nodup counts)
    · exact (Round.Gathered.start _ stacked amounts).of_standing same
    · intro entry _
      exact ⟨get_empty _, get_empty _⟩
  split
  · apply Ends.bind
    apply Ends.check
    intro stackRewardMap decoded
    exact rest _ fun _ _ found => unmarshal_nonneg decoded found
  · exact Ends.bind (Ends.pure (rest _ .empty))

end Formulator

end Gather

namespace Formulator

open Shares

section Distribute

variable [Account Acc] [Event Ev] [Base58] {join : World Acc Ev → World Acc Ev → World Acc Ev}
  (p : Formulator) (rate : Int) (round : Round)

theorem payReward_ends (entry : Address × Int) (w : World Acc Ev) :
    (p.payReward rate round entry).Ends join w fun round' w' =>
      w'.balances p.vault = w.balances p.vault + share coin rate entry.2 ∧
        w.SameStanding w' ∧ round'.stackRewardMap = round.stackRewardMap := by
  unfold payReward
  dsimp only
  split
  · apply Ends.bind
    apply Vault.addBalance_ends
    intro nonneg
    apply Ends.pure
    refine ⟨?_, rfl, rfl⟩
    rw [balances_setBalance _ _ _ (add_nonneg (w.balance_nonneg _ _) nonneg)]
    ring
  · rename_i zero
    apply Ends.pure
    refine ⟨?_, rfl, rfl⟩
    rw [not_not.mp zero, add_zero]

theorem payRewards_ends (entries : List (Address × Int)) (w : World Acc Ev) :
    (entries.foldlM (p.payReward rate) round).Ends join w fun round' w' =>
      w'.balances p.vault = w.balances p.vault + shares coin rate (entries.map Prod.snd) ∧
        w.SameStanding w' ∧ round'.stackRewardMap = round.stackRewardMap := by
  apply (Ends.foldlM (fun left (round' : Round) w' =>
    w'.balances p.vault + shares coin rate (left.map Prod.snd) =
        w.balances p.vault + shares coin rate (entries.map Prod.snd) ∧
      w.SameStanding w' ∧ round'.stackRewardMap = round.stackRewardMap) _ _).mono
  · intro round' w' holds
    exact ⟨(add_zero _).symm.trans holds.1, holds.2⟩
  · intro entry left round' mid holds
    apply (p.payReward_ends rate round' entry mid).mono
    intro round'' w' after
    refine ⟨?_, Eq.trans after.2.1 holds.2.1, after.2.2.trans holds.2.2⟩
    rw [← holds.1, after.1, List.map_cons, shares, shares, List.map_cons, List.sum_cons]
    ring
  · exact ⟨rfl, rfl, rfl⟩

theorem stackRewards_ends {entries : List (Address × Int)}
    {w : World Acc Ev} (present : ∀ entry ∈ entries, w.isPresent entry.1 = true) :
    (entries.foldlM (stackReward rate) round).Ends join w fun round' w' =>
      w' = w ∧ total round'.stackRewardMap =
        total round.stackRewardMap + shares coin rate (entries.map Prod.snd) := by
  apply (Ends.foldlM (fun left (round' : Round) w' =>
    w' = w ∧ (∀ entry ∈ left, w.isPresent entry.1 = true) ∧
      total round'.stackRewardMap + shares coin rate (left.map Prod.snd) =
        total round.stackRewardMap + shares coin rate (entries.map Prod.snd)) _ _).mono
  · intro round' w' holds
    exact ⟨holds.1, (add_zero _).symm.trans holds.2.2⟩
  · rintro entry left round' w' ⟨rfl, present, same⟩
    apply Ends.bind
    apply Ends.isAccount
    rw [if_pos (present entry (by simp))]
    apply Ends.pure
    refine ⟨rfl, fun other mem => present other (by simp [mem]), ?_⟩
    rw [← same, total_addAmount, List.map_cons, shares, shares, List.map_cons, List.sum_cons]
    ring
  · exact ⟨rfl, present, rfl⟩

theorem distribute_ends [SignedAccount Acc] [FormulatorCast Acc] (orders : MapOrders)
    (policy : RewardPolicy) (blocks : UInt32) {round : Round} {w : World Acc Ev}
    (gathered : round.Gathered w) (powered : round.rewardPowerSum ≠ 0) :
    (p.distribute orders policy blocks round).Ends join w fun round' w' =>
      w'.balances p.vault + total round'.stackRewardMap =
        w.balances p.vault + total round.stackRewardMap +
          shares coin (ratio coin (policy.rewardPerBlock * blocks.toNat + w.collectedFee p.vault)
              round.rewardPowerSum) round.powers := by
  have arranged : ∀ (loop : MapLoop) (mp : SortedMap Address Int) (rate : Int),
      shares coin rate ((orders.arrange loop mp.eachAll).map Prod.snd) =
        shares coin rate (amounts mp) := by
    intro loop mp rate
    exact (((orders.perm loop mp.eachAll).map Prod.snd).map _).sum_eq
  unfold distribute
  rw [if_neg powered]
  apply Ends.bind
  apply Ends.of_run (p.vault.exec_collectedFee join w)
  apply Ends.bind
  apply Ends.of_run (Vault.subCollectedFee_runs p.vault w)
  apply Ends.bind
  apply (p.payRewards_ends _ round _ _).mono
  intro paid mid rewarded
  apply (stackRewards_ends _ paid _).mono
  · rintro round' w' ⟨rfl, stacked⟩
    rw [arranged] at rewarded stacked
    have same : (w.setProcessData p.vault.pid Vault.tagCollectedFee []).balances p.vault =
      w.balances p.vault := rfl
    rw [stacked, rewarded.1, rewarded.2.2, same, Round.powers, shares, shares, shares,
      List.map_append, List.sum_append]
    ring
  · intro entry mem
    have listed := (orders.perm .stacks round.stakingRewardPowerMap.eachAll).mem_iff.mp mem
    have before := gathered.present _ _ ((mem_eachAll _ _ _).mp listed)
    rw [isPresent_of_standing rewarded.2.1]
    exact before

end Distribute

theorem bounded_of_shares {powers : List Int} {reward credited : Int} {entries : ℚ}
    (weighted : 0 < powers.sum) (counted : (powers.length : ℚ) = entries)
    (same : credited = shares coin (ratio coin reward powers.sum) powers) :
    credited ≤ reward ∧
      ((reward - credited : Int) : ℚ) < powers.sum / coin + entries := by
  refine ⟨same ▸ shares_le_pot coin_pos weighted, ?_⟩
  have positive : (0 : ℚ) < coin := by exact_mod_cast coin_pos
  have lost : ((reward - credited : Int) : ℚ) * coin <
      powers.sum + powers.length * coin := by
    rw [same]
    exact_mod_cast left_of_pot_lt coin_pos weighted
  rw [← counted, div_add' _ _ _ positive.ne', lt_div_iff₀ positive]
  exact lost

variable [Account Acc] [SignedAccount Acc] [FormulatorCast Acc] [Event Ev] [FormulatorEvents Ev]
  [Base58] [PairsCodec] {join : World Acc Ev → World Acc Ev → World Acc Ev} (p : Formulator)

/-- In a reward round with powers, what is credited to balances and what is stacked is together
at most the reward of the blocks and the collected fee, and short of it by less than the power
sum in coins and the number of powers. -/
theorem payRewards_bounded (orders : MapOrders) (policy : RewardPolicy) (lastPaidHeight : UInt32)
    {w w' : World Acc Ev} (unsigned : w.AmountsNonneg)
    (done : (p.payRewards orders policy lastPaidHeight).toProg.exec join w = (.ok (), w')) :
    ∃ round before round' after,
      (p.gather orders policy).RunsTo join w round before ∧
      (p.distribute orders policy (w.env.targetHeight - lastPaidHeight) round).RunsTo join
        before round' after ∧
      (p.finish policy round').toProg.exec join after = (.ok (), w') ∧
      (round.rewardPowerSum ≠ 0 →
        let reward := policy.rewardPerBlock * (w.env.targetHeight - lastPaidHeight).toNat +
          before.collectedFee p.vault
        let credited := after.balances p.vault - before.balances p.vault +
          (total round'.stackRewardMap - total round.stackRewardMap)
        credited ≤ reward ∧ ((reward - credited : Int) : ℚ) < round.rewardPowerSum / coin +
            (round.rewardPowerMap.len + round.stakingRewardPowerMap.len)) := by
  obtain ⟨round, before, gathers, gathered, done⟩ := (p.gather_ends orders policy unsigned).of_ok done
  by_cases powered : round.rewardPowerSum = 0
  · have idle : (p.distribute orders policy (w.env.targetHeight - lastPaidHeight) round).RunsTo
        join before round before := by
      intro next
      rw [distribute, if_pos powered]
      rfl
    exact ⟨round, before, round, before, gathers, idle, (idle _).symm.trans done,
      fun nonzero => absurd powered nonzero⟩
  · obtain ⟨round', after, distributes, grown, done⟩ :=
      (p.distribute_ends orders policy _ gathered powered).of_ok done
    refine ⟨round, before, round', after, gathers, distributes, done, fun _ => ?_⟩
    have weighted : 0 < round.powers.sum := gathered.powers_sum ▸ gathered.power_pos powered
    rw [← gathered.powers_sum] at grown ⊢
    apply bounded_of_shares weighted
    · rw [Round.length_powers]
      push_cast
      rfl
    · linarith

end Formulator

namespace Instances

open StakingInstances

def oneGenerated : World ChainAccount PlainEvent :=
  ((someProcess.addGenCount someAddress).toProg.exec commit (hyperChain ⟨100, 0, 1⟩ 1)).2

theorem oneGenerated_unsigned : oneGenerated.AmountsNonneg := by
  intro addr fr present
  have standing : oneGenerated.standing = (hyperChain ⟨100, 0, 1⟩ 1).standing := rfl
  rw [standing, hyperChain] at present
  by_cases here : addr = someAddress
  · subst here
    simp only [Function.update_self, Standing.present.injEq] at present
    obtain rfl : someHyper ⟨100, 0, 1⟩ = fr := ChainAccount.formulator.inj present
    decide
  · simp [here] at present

def somePolicy : RewardPolicy := ⟨coin, 1, 1000, 1000, 1000, 1000, 1000⟩

/-- The hyper formulator gets the reward of the block. -/
theorem one_block_rewarded : ∃ w' round before round' after,
    (someProcess.payRewards asListed somePolicy 0).toProg.exec commit oneGenerated =
        (.ok (), w') ∧
      (someProcess.gather asListed somePolicy).RunsTo commit oneGenerated round before ∧
      (someProcess.distribute asListed somePolicy (oneGenerated.env.targetHeight - 0) round).RunsTo
        commit before round' after ∧
      round.rewardPowerSum ≠ 0 ∧
      after.balances someProcess.vault - before.balances someProcess.vault +
        (total round'.stackRewardMap - total round.stackRewardMap) ≤
          coin + before.collectedFee someProcess.vault := by
  obtain ⟨w', ran, _⟩ : ∃ w', (someProcess.payRewards asListed somePolicy 0).toProg.exec commit
      oneGenerated = (.ok (), w') ∧ True := exists_passed (by decide +kernel) fun _ _ => trivial
  have powered : ((someProcess.gather asListed somePolicy) (fun round =>
      .done (if round.rewardPowerSum = 0 then .error .notExistAccount else .ok ())) |>.exec
        commit oneGenerated).1 = .ok () := by decide +kernel
  obtain ⟨round, before, round', after, gathers, distributes, _, bounded⟩ :=
    someProcess.payRewards_bounded asListed somePolicy 0 oneGenerated_unsigned ran
  have nonzero : round.rewardPowerSum ≠ 0 := by
    intro zero
    rw [gathers, zero, if_pos rfl] at powered
    cases powered
  exact ⟨w', round, before, round', after, ran, gathers, distributes, nonzero, (bounded nonzero).1⟩

end Instances

end Fleta
