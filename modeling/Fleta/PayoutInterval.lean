import Fleta.FormulatorMerge
import Fleta.HookFrames

/-!
# The interval between payouts

The hook of a block pays out a hyper formulator only when the height has reached the height
of its last payout and the interval of its policy, a sum and a product of 32 bits. Nothing
else writes the height of the last payout. So two payouts in a row are an interval apart
exactly when the sum did not wrap around.
-/

namespace Fleta

open Script

variable {Acc Ev : Type}

namespace Formulator

def paidBytes (p : Formulator) (w : World Acc Ev) (addr : Address) : Bytes :=
  w.accountData addr p.pid tagLastStakingPaidHeight

def paidHeight (p : Formulator) (w : World Acc Ev) (addr : Address) : UInt32 :=
  if (p.paidBytes w addr).length > 0 then uint32Of (p.paidBytes w addr) else 0

def paidMark (p : Formulator) (w : World Acc Ev) (addr : Address) : Bool :=
  w.emptied addr p.pid tagLastStakingPaidHeight

section Orderly

variable [Account Acc]

structure Orderly (p : Formulator) (w w' : World Acc Ev) : Prop where
  env : w'.env = w.env
  placed : w.Placed → w'.Placed
  heights : ∀ addr, p.paidMark w addr = false →
    p.paidMark w' addr = false ∧ p.paidBytes w' addr = p.paidBytes w addr

namespace Orderly

variable {p : Formulator} {w w' : World Acc Ev}

instance : Std.Refl (p.Orderly : World Acc Ev → World Acc Ev → Prop) where
  refl _ := ⟨rfl, id, fun _ unmarked => ⟨unmarked, rfl⟩⟩

instance : IsTrans (World Acc Ev) p.Orderly where
  trans _ _ _ first second := by
    refine ⟨second.env.trans first.env, fun placed => second.placed (first.placed placed), ?_⟩
    intro addr unmarked
    have before := first.heights addr unmarked
    have after := second.heights addr before.1
    exact ⟨after.1, after.2.trans before.2⟩

theorem setAccountData (addr : Address) {pid : UInt8} {name : Bytes}
    (other : ¬(p.pid = pid ∧ tagLastStakingPaidHeight = name)) (value : Bytes) :
    p.Orderly w (w.setAccountData addr pid name value) := by
  have elsewhere : ∀ addr', ¬(addr' = addr ∧ p.pid = pid ∧ tagLastStakingPaidHeight = name) :=
    fun _ hit => other hit.2
  refine ⟨rfl, fun placed => placed, ?_⟩
  intro addr' unmarked
  simp only [paidMark, paidBytes, World.setAccountData, if_neg (elsewhere addr')] at unmarked ⊢
  exact ⟨unmarked, trivial⟩

theorem updateAccount {update : Acc → Acc}
    (same : ∀ acc, Account.address (update acc) = Account.address acc) (addr : Address) :
    p.Orderly w (w.updateAccount addr update) := by
  refine ⟨World.updateAccount_env w addr update, fun placed => placed.updateAccount same addr, ?_⟩
  intro addr' unmarked
  unfold World.updateAccount
  split <;> exact ⟨unmarked, rfl⟩

theorem deleteAccount (acc : Acc) : p.Orderly w (w.deleteAccount acc).2 := by
  unfold World.deleteAccount
  split
  · exact Std.Refl.refl w
  · refine ⟨rfl, ?_, fun _ unmarked => ⟨unmarked, rfl⟩⟩
    intro placed addr found present
    by_cases here : addr = Account.address acc
    · subst here
      simp [World.stand] at present
    · simp only [World.stand, Function.update_of_ne here] at present
      exact placed addr found present

theorem commit (inner : p.Orderly w.snapshot w') : p.Orderly w (w.commit w') := by
  refine ⟨inner.env, fun placed => inner.placed placed, ?_⟩
  intro addr unmarked
  have same := inner.heights addr rfl
  simp only [paidMark, paidBytes] at unmarked same ⊢
  simp only [World.commit, unmarked, same.1, Bool.or_self, Bool.false_eq_true, if_false]
  exact ⟨trivial, same.2⟩

theorem nextBlock (env : Env) (placed : w.Placed) : (w.nextBlock env).Placed := by
  intro addr acc present
  simp only [World.nextBlock] at present
  split at present
  · cases present
  · exact placed addr acc present

end Orderly

variable [SignedAccount Acc] [FormulatorCast Acc] [Event Ev]

open FormulatorCast

theorem orderly_admitsHook (p : Formulator) :
    p.AdmitsHook (p.Orderly : World Acc Ev → World Acc Ev → Prop) where
  process _ _ _ _ _ := ⟨rfl, id, fun _ unmarked => ⟨unmarked, rfl⟩⟩
  balance _ addr am := Orderly.setAccountData addr (fun hit => p.distinct hit.1) _
  data _ addr name value other := Orderly.setAccountData addr (fun hit => other hit.2.symm) value
  counted _ addr := by
    apply Orderly.updateAccount
    exact address_change fun fr => rfl
  returned _ addr am := by
    apply Orderly.updateAccount
    exact address_change fun fr => rfl
  deleted _ acc := Orderly.deleteAccount acc
  emitted _ _ := ⟨rfl, id, fun _ unmarked => ⟨unmarked, rfl⟩⟩

end Orderly

variable [Account Acc] [SignedAccount Acc] [FormulatorCast Acc]

open FormulatorCast

/-- The address and the policy of the formulator that stands under an address. -/
def policyAt (w : World Acc Ev) (addr : Address) : Option (Address × ValidatorPolicy) :=
  match w.standing addr with
  | .present acc => (asFormulator acc).map fun fr => (fr.address, fr.policy)
  | _ => none

theorem policyAt_of_placed {w : World Acc Ev} (placed : w.Placed) {addr own : Address}
    {policy : ValidatorPolicy} (found : policyAt w addr = some (own, policy)) : own = addr := by
  unfold policyAt at found
  split at found
  · rename_i acc present
    cases cast : asFormulator acc with
    | none =>
      rw [cast] at found
      cases found
    | some fr =>
      rw [cast, Option.map_some, Option.some.injEq, Prod.mk.injEq] at found
      rw [(asFormulator_eq_some acc fr).mp cast] at present
      have stands := placed addr _ present
      rw [address_ofFormulator] at stands
      rw [← found.1, stands]
  · cases found

structure SamePolicies (p : Formulator) (w w' : World Acc Ev) : Prop extends p.Orderly w w' where
  policies : ∀ addr, policyAt w' addr = policyAt w addr

namespace SamePolicies

variable {p : Formulator} {w w' : World Acc Ev}

instance : Std.Refl (p.SamePolicies : World Acc Ev → World Acc Ev → Prop) where
  refl w := ⟨Std.Refl.refl w, fun _ => rfl⟩

instance : IsTrans (World Acc Ev) p.SamePolicies where
  trans _ _ _ first second := ⟨IsTrans.trans _ _ _ first.toOrderly second.toOrderly,
      fun addr => (second.policies addr).trans (first.policies addr)⟩

theorem of_standing (orderly : p.Orderly w w') (same : w'.standing = w.standing) :
    p.SamePolicies w w' := by
  refine ⟨orderly, ?_⟩
  intro addr
  rw [policyAt, policyAt, same]

theorem updateAccount {update : FormulatorAccount → FormulatorAccount}
    (address : ∀ fr, (update fr).address = fr.address)
    (policy : ∀ fr, (update fr).policy = fr.policy) (addr : Address) :
    p.SamePolicies w (w.updateAccount addr (change update)) := by
  refine ⟨.updateAccount (address_change address) addr, ?_⟩
  intro other
  unfold World.updateAccount
  split
  · rename_i acc present
    by_cases here : other = addr
    · subst here
      simp only [policyAt, World.stand, Function.update_self, present]
      unfold change
      split
      · rename_i fr cast
        rw [asFormulator_ofFormulator, cast, Option.map_some, Option.map_some, address, policy]
      · rfl
    · simp only [policyAt, World.stand, Function.update_of_ne here]
  · rfl

end SamePolicies

theorem samePolicies_admits [Event Ev] (p : Formulator) :
    p.Admits (p.SamePolicies : World Acc Ev → World Acc Ev → Prop) where
  process w pid name value writes :=
    .of_standing (p.orderly_admitsHook.process w pid name value writes) rfl
  balance w addr am := .of_standing (p.orderly_admitsHook.balance w addr am) rfl
  data w addr name value other := .of_standing (p.orderly_admitsHook.data w addr name value other) rfl
  counted w addr := by
    apply SamePolicies.updateAccount
    · exact fun fr => rfl
    · exact fun fr => rfl

def Known (w : World Acc Ev) (fr : FormulatorAccount) : Prop :=
  ∃ gen, policyAt w gen = some (fr.address, fr.policy)

def Due (p : Formulator) (policy : RewardPolicy) (w : World Acc Ev) (own : Address) : Prop :=
  ∃ fr : FormulatorAccount, fr.address = own ∧ Known w fr ∧
    isPayOutHeight policy fr w.env.targetHeight (p.paidHeight w own) = true

structure Pays (p : Formulator) (policy : RewardPolicy) (w w' : World Acc Ev) : Prop where
  env : w'.env = w.env
  placed : w.Placed → w'.Placed
  heights : ∀ addr, p.paidMark w addr = false → p.paidMark w' addr = false ∧
    (p.paidBytes w' addr = p.paidBytes w addr ∨
      p.Due policy w addr ∧ p.paidBytes w' addr = uint32Bytes w.env.targetHeight)

variable {p : Formulator} {policy : RewardPolicy} {w mid w' : World Acc Ev}

namespace Pays

theorem of_orderly (orderly : p.Orderly w w') : p.Pays policy w w' where
  env := orderly.env
  placed := orderly.placed
  heights addr unmarked :=
    have same := orderly.heights addr unmarked
    ⟨same.1, .inl same.2⟩

theorem trans_orderly (pays : p.Pays policy w mid) (orderly : p.Orderly mid w') :
    p.Pays policy w w' where
  env := orderly.env.trans pays.env
  placed placed := orderly.placed (pays.placed placed)
  heights addr unmarked := by
    have before := pays.heights addr unmarked
    have after := orderly.heights addr before.1
    rw [after.2]
    exact ⟨after.1, before.2⟩

theorem after_same (same : p.SamePolicies w mid) (pays : p.Pays policy mid w') :
    p.Pays policy w w' where
  env := pays.env.trans same.env
  placed placed := pays.placed (same.placed placed)
  heights addr unmarked := by
    have before := same.heights addr unmarked
    have after := pays.heights addr before.1
    refine ⟨after.1, ?_⟩
    rcases after.2 with kept | ⟨⟨fr, own, ⟨gen, found⟩, reached⟩, written⟩
    · exact .inl (kept.trans before.2)
    · have last : p.paidHeight mid addr = p.paidHeight w addr := by
        rw [paidHeight, paidHeight, before.2]
      rw [same.env, last] at reached
      rw [same.env] at written
      exact .inr ⟨⟨fr, own, ⟨gen, (same.policies gen).symm.trans found⟩, reached⟩, written⟩

theorem payOut {fr : FormulatorAccount} (known : Known w fr) (pays : p.Pays policy w mid)
    (step : p.Orderly mid w' ∨ ∃ last, p.Orderly mid last ∧
      isPayOutHeight policy fr w.env.targetHeight (p.paidHeight mid fr.address) = true ∧
      w' = last.setAccountData fr.address p.pid tagLastStakingPaidHeight
        (uint32Bytes w.env.targetHeight)) : p.Pays policy w w' := by
  rcases step with orderly | ⟨last, orderly, reached, rfl⟩
  · exact pays.trans_orderly orderly
  · have before := pays.trans_orderly orderly
    refine ⟨before.env, before.placed, ?_⟩
    intro addr unmarked
    have kept := before.heights addr unmarked
    by_cases here : addr = fr.address
    · subst here
      have written : p.paidBytes (last.setAccountData fr.address p.pid tagLastStakingPaidHeight
          (uint32Bytes w.env.targetHeight)) fr.address = uint32Bytes w.env.targetHeight := by
        simp [paidBytes, World.setAccountData]
      have unmarked' : p.paidMark (last.setAccountData fr.address p.pid tagLastStakingPaidHeight
          (uint32Bytes w.env.targetHeight)) fr.address = false := by
        have long : uint32Bytes w.env.targetHeight ≠ [] := by
          intro empty
          have length := length_uint32Bytes w.env.targetHeight
          rw [empty] at length
          cases length
        simp [paidMark, World.setAccountData, long]
      refine ⟨unmarked', .inr ⟨?_, written⟩⟩
      -- an earlier payout of the round has left its own evidence
      rcases (pays.heights fr.address unmarked).2 with same | ⟨due, _⟩
      · refine ⟨fr, rfl, known, ?_⟩
        rw [paidHeight, same] at reached
        exact reached
      · exact due
    · simpa [paidMark, paidBytes, World.setAccountData, here] using kept

end Pays

section Hypers

variable [Event Ev] [Base58] [PairsCodec] {join : World Acc Ev → World Acc Ev → World Acc Ev}
  (p : Formulator) (orders : MapOrders)

theorem gatherPower_hypers (policy : RewardPolicy) {round : Round}
    (entry : Address × UInt32) {w : World Acc Ev} (known : ∀ fr ∈ round.hypers, Known w fr) :
    (p.gatherPower orders policy round entry).Ends join w fun round' _ =>
      ∀ fr ∈ round'.hypers, Known w fr := by
  apply Ends.bind
  apply Ends.isAccount
  split
  · apply Ends.bind
    apply Ends.account
    apply Ends.bind
    apply Ends.check
    intro acc found
    split
    · exact .fail _
    · rename_i fr cast
      split
      · exact .pure known
      · apply Ends.bind
        apply Ends.updateAccount
        split
        · exact Ends.fail _
        · split
          · apply Ends.bind
            apply (p.samePolicies_admits.stakingRewardPower orders policy _ _ _ _).mono
            intro power w' _
            apply Ends.pure
            intro other mem
            rcases List.mem_append.mp mem with old | new
            · exact known other old
            · obtain rfl := List.mem_singleton.mp new
              refine ⟨entry.1, ?_⟩
              simp only [policyAt, World.account_ok found, cast, Option.map_some]
          · exact Ends.pure known
  · exact Ends.pure known

theorem gather_hypers (policy : RewardPolicy) (w : World Acc Ev) :
    (p.gather orders policy).Ends join w fun round w' =>
      p.SamePolicies w w' ∧ ∀ fr ∈ round.hypers, Known w fr := by
  apply ((p.samePolicies_admits.gather orders policy) w).and
  apply Ends.bind
  apply Ends.env
  apply Ends.bind
  have writes : ∀ (w : World Acc Ev) name value, name.head? = some 3 →
      p.SamePolicies w (w.setProcessData p.pid name value) := fun w name value starts =>
    p.samePolicies_admits.process w p.pid name value (.of_head starts (by decide) value)
  apply (flushGenCountMap_keeps writes w).mono
  intro counts mid same
  apply Ends.bind
  apply Ends.processData
  have rest : ∀ stackRewardMap, ((orders.arrange .counts counts.eachAll).foldlM
      (p.gatherPower orders policy) (Round.start w.env.targetHeight stackRewardMap)).Ends join mid
        fun round _ => ∀ fr ∈ round.hypers, Known w fr := by
    intro stackRewardMap
    apply (Ends.foldlM (fun _ (round : Round) w' =>
      p.SamePolicies w w' ∧ ∀ fr ∈ round.hypers, Known w fr) _ _).mono
    · intro round w' holds
      exact holds.2
    · intro entry left round w' holds
      have known : ∀ fr ∈ round.hypers, Known w' fr := by
        intro fr mem
        obtain ⟨gen, found⟩ := holds.2 fr mem
        exact ⟨gen, (holds.1.policies gen).trans found⟩
      apply ((p.samePolicies_admits.gatherPower orders policy round entry w').and
        (p.gatherPower_hypers orders policy entry known)).mono
      intro round' w'' after
      refine ⟨IsTrans.trans _ _ _ holds.1 after.1, ?_⟩
      intro fr mem
      obtain ⟨gen, found⟩ := after.2 fr mem
      exact ⟨gen, (holds.1.policies gen).symm.trans found⟩
    · exact ⟨same, fun fr mem => by cases mem⟩
  split
  · apply Ends.bind
    apply Ends.check
    intro stackRewardMap _
    exact rest _
  · exact .bind (.pure (rest _))

omit [SignedAccount Acc] [FormulatorCast Acc] [PairsCodec] in
theorem distribute_hypers (policy : RewardPolicy) (blocks : UInt32)
    (round : Round) (w : World Acc Ev) :
    (p.distribute orders policy blocks round).Ends join w fun round' _ =>
      round'.hypers = round.hypers := by
  unfold distribute
  split
  · exact .pure rfl
  · apply Ends.bind
    apply Ends.of_run (p.vault.exec_collectedFee join w)
    apply Ends.bind
    apply Ends.of_run (Vault.subCollectedFee_runs p.vault w)
    apply Ends.bind
    apply (Ends.foldlM (fun _ (round' : Round) _ => round'.hypers = round.hypers) _ _).mono
    · intro paid mid same
      apply Ends.foldlM (fun _ (round' : Round) _ => round'.hypers = round.hypers) _ same
      intro entry left round' w' same
      apply Ends.bind
      apply Ends.isAccount
      split <;> exact Ends.pure same
    · intro entry left round' w' same
      unfold payReward
      dsimp only
      split
      · apply Ends.bind
        apply Vault.addBalance_ends
        intro _
        exact Ends.pure same
      · exact Ends.pure same
    · rfl

end Hypers

variable [Event Ev] [Base58] [PairsCodec] {join : World Acc Ev → World Acc Ev → World Acc Ev}
  (p : Formulator)

omit [SignedAccount Acc] [FormulatorCast Acc] [PairsCodec] in
theorem getLastStakingPaidHeight_runs (addr : Address) (w : World Acc Ev) :
    (p.getLastStakingPaidHeight addr).RunsTo join w (p.paidHeight w addr) w := fun _ => rfl

theorem payOut_ends (policy : RewardPolicy) (height : UInt32) (round : Round)
    (fr : FormulatorAccount) (w : World Acc Ev) :
    (p.payOut policy height round fr).Ends join w fun _ w' =>
      p.Orderly w w' ∨ ∃ mid, p.Orderly w mid ∧
        isPayOutHeight policy fr height (p.paidHeight w fr.address) = true ∧
        w' = mid.setAccountData fr.address p.pid tagLastStakingPaidHeight (uint32Bytes height) := by
  unfold payOut
  split
  · exact .pure (.inl (Std.Refl.refl w))
  · apply Ends.bind
    apply Ends.of_run (p.getLastStakingPaidHeight_runs fr.address w)
    split
    · rename_i due
      apply Ends.bind
      apply (p.orderly_admitsHook.payStakers fr _ _ w).mono
      intro ev mid orderly
      apply Ends.bind
      apply Ends.setAccountData
      apply Ends.bind
      apply Ends.setAccountData
      apply Ends.pure
      have cleared : p.Orderly mid (mid.setAccountData fr.address p.pid tagStakingPowerMap []) :=
        p.orderly_admitsHook.data mid fr.address tagStakingPowerMap [] (by decide)
      exact .inr ⟨_, IsTrans.trans _ _ _ orderly cleared, due, rfl⟩
    · exact .pure (.inl (Std.Refl.refl w))

variable {w : World Acc Ev}

theorem finish_ends [FormulatorEvents Ev] (policy : RewardPolicy) {round : Round}
    (known : ∀ fr ∈ round.hypers, Known w fr) :
    (p.finish policy round).Ends join w fun _ w' => p.Pays policy w w' := by
  apply Ends.bind
  apply Ends.env
  apply Ends.bind
  apply (Ends.foldlM (fun left _ w' => (∀ fr ∈ left, Known w fr) ∧ p.Pays policy w w') _ _).mono
  · intro round' mid holds
    have stored : (do
        setProcessData p.pid tagStackRewardMap (AmountMap.marshal round'.stackRewardMap)
        emitEvent (FormulatorEvents.reward round'.event)
        p.setLastPaidHeight w.env.targetHeight : Script Acc Ev Unit).Keeps join p.Orderly := by
      have emits : (emitEvent (FormulatorEvents.reward round'.event) : Script Acc Ev Unit).Keeps
        join p.Orderly := Keeps.emitEvent fun w => p.orderly_admitsHook.emitted w _
      apply (p.orderly_admitsHook.setProcessData (.of_head rfl (by decide) _)).bind
      intro _
      apply emits.bind
      intro _
      exact p.orderly_admitsHook.setProcessData (.of_head rfl (by decide) _)
    apply (stored mid).mono
    intro _ w' orderly
    exact holds.2.trans_orderly orderly
  · intro fr left round' mid holds
    apply (p.payOut_ends policy w.env.targetHeight round' fr mid).mono
    intro round'' w' step
    refine ⟨fun other mem => holds.1 other (by simp [mem]), ?_⟩
    exact holds.2.payOut (holds.1 fr (by simp)) step
  · exact ⟨known, .of_orderly (Std.Refl.refl w)⟩

variable (orders : MapOrders)

theorem payRewards_pays [FormulatorEvents Ev] (policy : RewardPolicy)
    (lastPaidHeight : UInt32) (w : World Acc Ev) :
    (p.payRewards orders policy lastPaidHeight).Ends join w fun _ w' => p.Pays policy w w' := by
  apply Ends.bind
  apply Ends.env
  apply Ends.bind
  apply (p.gather_hypers orders policy w).mono
  intro round gathered first
  apply Ends.bind
  apply ((p.samePolicies_admits.distribute orders policy _ round gathered).and
    (p.distribute_hypers orders policy _ round gathered)).mono
  intro round' distributed second
  have same : p.SamePolicies w distributed := IsTrans.trans _ _ _ first.1 second.1
  have known : ∀ fr ∈ round'.hypers, Known distributed fr := by
    intro fr mem
    rw [second.2] at mem
    obtain ⟨gen, found⟩ := first.2 fr mem
    exact ⟨gen, (same.policies gen).trans found⟩
  apply (p.finish_ends policy known).mono
  intro _ w' pays
  exact .after_same same pays

variable (generator : Address)

omit [SignedAccount Acc] [FormulatorCast Acc] [PairsCodec] in
theorem addGenCount_policy (w : World Acc Ev) :
    (p.addGenCount generator).Ends join w fun _ w' =>
      w'.processData p.pid tagRewardPolicy = w.processData p.pid tagRewardPolicy := by
  let rel : World Acc Ev → World Acc Ev → Prop := fun w w' =>
    w'.processData p.pid tagRewardPolicy = w.processData p.pid tagRewardPolicy
  have write : ∀ name value, name.head? = some 3 →
      (setProcessData p.pid name value : Script Acc Ev Unit).Keeps join rel := by
    intro name value starts
    apply Keeps.setProcessData
    intro w
    apply if_neg
    intro hit
    rw [← hit.2] at starts
    cases starts
  have table : (p.generators : Index Acc Ev).Within join rel := by
    refine ⟨Keeps.processData p.pid, ?_⟩
    intro name value key
    apply write
    rcases key with ⟨addr, rfl⟩ | ⟨num, rfl⟩ | rfl <;> rfl
  have keeps : (p.addGenCount generator : Script Acc Ev Unit).Keeps join rel := by
    apply (table.add generator).bind
    intro _
    apply ((Keeps.processData _ _).map).bind
    intro count
    exact write _ _ rfl
  exact keeps w

theorem afterExecuteTransactions_pays [FormulatorEvents Ev] [PolicyCodecs] (w : World Acc Ev) :
    (p.afterExecuteTransactions orders generator).Ends join w fun _ w' =>
      ∃ policy, PolicyCodecs.rewardPolicy (w.processData p.pid tagRewardPolicy) = .ok policy ∧
        p.Pays policy w w' := by
  apply Ends.bind
  apply ((p.samePolicies_admits.addGenCount generator w).and
    (p.addGenCount_policy generator w)).mono
  intro _ counted first
  apply Ends.bind
  apply Ends.bind
  apply Ends.processData
  apply Ends.check
  intro policy decoded
  rw [first.2] at decoded
  apply Ends.bind
  have rounds : (p.payRewardsIfDue orders policy).Ends join counted fun _ w' =>
      p.Pays policy counted w' := by
    apply Ends.bind
    apply Ends.env
    apply Ends.bind
    apply Ends.bind
    apply Ends.processData
    apply Ends.pure
    generalize (if (counted.processData p.pid tagLastPaidHeight).length > 0 then
      uint32Of (counted.processData p.pid tagLastPaidHeight) else 0) = lastPaidHeight
    split
    · exact p.payRewards_pays orders policy _ counted
    · exact Ends.pure (.of_orderly (Std.Refl.refl counted))
  apply rounds.mono
  intro _ paid pays
  apply (p.orderly_admitsHook.paySchedules orders paid).mono
  intro _ w' orderly
  exact ⟨policy, decoded, .after_same first.1 (pays.trans_orderly orderly)⟩

end Formulator

end Fleta
