import Fleta.HookFrames
import Fleta.StakingConservation

/-!
# The ledger of unstaked amounts

An unstaked amount waits under the height of its payout, the staker and the hyper formulator.
It is raised by `Unstaking`, lowered by `RevertUnstaking`, and emptied by the payout. When
nothing is left in the map of a staker, the source takes the staker out of the payout schedule
but leaves the stored map as it was: the amount can be reverted again.
-/

namespace Fleta

open Script Amount StakingTx

variable {Acc Ev : Type}

namespace Formulator

section Lowers

variable [PairsCodec] (p : Formulator)

/-- The payout of the height goes through the staker and finds an amount of the hyper
formulator. -/
def Scheduled (w : World Acc Ev) (height : UInt32) (staker hyper : Address) : Prop :=
  (∃ i < ((p.unstakers height : Index Acc Ev).toIndexKeys.count (w.processData p.pid)).toNat,
    Database.addressOf
      (w.processData p.pid (toUnstakingAmountReverseKey height (UInt32.ofNat i))) = staker) ∧
    ((p.pendingMap w height staker).get hyper).isSome = true

structure Lowers (height : UInt32) (staker hyper : Address) (am : Int) (w w' : World Acc Ev) :
    Prop where
  entry : p.amount w' (.pending height staker hyper) =
    p.amount w (.pending height staker hyper) - am
  used : 0 < am → p.amount w (.pending height staker hyper) = am →
    ¬p.Scheduled w' height staker hyper
  others : ∀ height' staker' hyper', ¬(height' = height ∧ staker' = staker ∧ hyper' = hyper) →
    p.amount w' (.pending height' staker' hyper') = p.amount w (.pending height' staker' hyper')

variable {staker hyper : Address} {height : UInt32}

theorem Drains.amount {p : Formulator} {w : World Acc Ev}
    {am : Int} (drains : p.Drains w height staker hyper am) :
    p.amount w (.pending height staker hyper) = am := by
  rw [Formulator.amount, drains, SortedMap.get_put_self, Option.getD_some]

variable [Account Acc] [Event Ev] [Base58] [LawfulPairsCodec] {p}
  {join : World Acc Ev → World Acc Ev → World Acc Ev} {w w' : World Acc Ev}

theorem lowers_iff_of_passed {am : Int}
    (passed : (p.subUnstakingAmount hyper staker height am).toProg.exec join w = (.ok (), w')) :
    p.Lowers height staker hyper am w w' ↔ ¬(am ≠ 0 ∧ p.Drains w height staker hyper am) := by
  obtain ⟨mid, enough, drained, left, done⟩ := subUnstakingAmount_ok passed
  obtain rfl : mid = w' := congrArg Prod.snd done
  by_cases drains : p.Drains w height staker hyper am
  · have same := (drained drains).amount
    constructor
    · rintro lowers ⟨some, _⟩
      have entry := lowers.entry
      rw [same] at entry
      omega
    · intro none
      have zero : am = 0 := by
        by_contra some
        exact none ⟨some, drains⟩
      refine ⟨?_, fun positive => absurd zero (Int.ne_of_gt positive), fun _ _ _ _ => by rw [same]⟩
      rw [same, zero, sub_zero]
  · have puts := (left drains).1
    refine ⟨fun _ both => drains both.2, fun _ => ⟨?_, fun _ all scheduled => ?_, ?_⟩⟩
    · rw [puts.amount, Function.update_self]
      omega
    · rw [Scheduled, (left drains).2 all] at scheduled
      cases scheduled.2
    · intro height' staker' hyper' other
      rw [puts.amount, Function.update_of_ne]
      rintro ⟨⟩
      exact other ⟨rfl, rfl, rfl⟩

end Lowers

structure UnstakingEntry where
  height : UInt32
  staker : Address
  hyper : Address
deriving DecidableEq

def UnstakingEntry.pot (entry : UnstakingEntry) : Pot :=
  .pending entry.height entry.staker entry.hyper

section Transactions

variable [PairsCodec] [LawfulPairsCodec] [Account Acc] [Event Ev] [Base58] [FormulatorAccounts Acc]
  [HyperPolicyCodec] {p : Formulator} {w w' : World Acc Ev} (entry : UnstakingEntry) {amount : Int}

omit [LawfulPairsCodec] [FormulatorAccounts Acc] [HyperPolicyCodec] in
theorem payFrom_elsewhere {sender : Address} {pot : Pot}
    {move : Int → Script Acc Ev Unit} (gives : p.Gives pot move)
    (known : w.hasAccount sender = .ok true) (clean : p.Clean w) (nonneg : 0 ≤ amount)
    (apart : pot ≠ .balance sender ∧ pot ≠ .collected) (other : entry.pot ≠ pot)
    (done : (p.payFrom sender amount move).toProg.exec World.commit w = (.ok (), w')) :
    p.amount w' entry.pot = p.amount w entry.pot := by
  rw [payFrom_moves gives known apart clean nonneg done]
  simp only [Pi.add_apply, Pi.single_eq_of_ne other, add_zero]
  simp [UnstakingEntry.pot]

variable {sender hyper : Address}

theorem unstaking_entry (positive : 0 < amount)
    (known : w.hasAccount sender = .ok true) (fresh : ∀ pot, p.marked w pot = false)
    (covered : entry = ⟨p.unlockHeight w, sender, hyper⟩ →
      (unstaking sender hyper amount).Covered p w)
    (done : ((unstaking sender hyper amount).execute p : Script Acc Ev Unit).toProg.exec
      World.commit w = (.ok (), w')) :
    p.amount w' entry.pot ≤ p.amount w entry.pot +
      if entry = ⟨p.unlockHeight w, sender, hyper⟩ then amount else 0 := by
  obtain ⟨enough, mid, puts, done⟩ := unstaking_ok done
  have lowered := puts.adds rfl (by omega)
  have clean := (Clean.of_unmarked fresh).puts puts
  have known := (puts.hasAccount sender).trans known
  have before : ∀ entry : UnstakingEntry, p.amount mid entry.pot = p.amount w entry.pot := by
    intro entry
    rw [lowered]
    simp [UnstakingEntry.pot]
  have gives : p.Gives (.pending (p.unlockHeight w) sender hyper) fun am =>
      (p.addUnstakingAmount hyper sender (p.unlockHeight w) am : Script Acc Ev Unit) :=
    addUnstakingAmount_gives hyper sender _
  split
  · rename_i same
    have covers : _ ∨ _ := covered same
    subst same
    have balance : mid.balance p.vault sender = w.balance p.vault sender := by
      have held := congrFun lowered (.balance sender)
      rwa [Pi.add_apply, Pi.single_eq_of_ne (by simp), add_zero] at held
    have held := before ⟨p.unlockHeight w, sender, hyper⟩
    have fee := w.defaultFee_nonneg p.vault
    rw [← held, payFrom_moves gives known (by simp) clean positive.le done]
    simp only [UnstakingEntry.pot, Pi.add_apply, Pi.single_eq_same] at held ⊢
    rw [Pi.single_eq_of_ne (by simp), Pi.single_eq_of_ne (by simp), credit, puts.defaultFee, balance]
    split_ifs <;> omega
  · rename_i other
    rw [payFrom_elsewhere entry gives known clean positive.le (by simp) ?_ done, before, add_zero]
    intro same
    simp only [UnstakingEntry.pot, Pot.pending.injEq] at same
    exact other (by cases entry; simp_all)

theorem revertUnstaking_entry {height : UInt32}
    (positive : 0 < amount) (known : w.hasAccount sender = .ok true)
    (fresh : ∀ pot, p.marked w pot = false)
    (remains : entry = ⟨height, sender, hyper⟩ → ¬p.Drains w height sender hyper amount)
    (done : ((revertUnstaking sender hyper height amount).execute p :
      Script Acc Ev Unit).toProg.exec World.commit w = (.ok (), w')) :
    p.amount w' entry.pot + (if entry = ⟨height, sender, hyper⟩ then amount else 0) =
      p.amount w entry.pot := by
  obtain ⟨_, _, done⟩ := assertFormulator_asks hyper _ _ _ done
  obtain ⟨mid, enough, drained, left, done⟩ := subUnstakingAmount_ok done
  have clean := Clean.of_unmarked fresh
  by_cases drains : p.Drains w height sender hyper amount
  · have same := drained drains
    have other : entry ≠ ⟨height, sender, hyper⟩ := fun here => remains here drains
    rw [payFrom_elsewhere entry (addStaked_gives hyper sender)
      ((same.hasAccount sender).trans known) (clean.same same) positive.le (by simp)
      (by simp [UnstakingEntry.pot]) done, same.amount, if_neg other, add_zero]
  · have puts := (left drains).1
    rw [payFrom_elsewhere entry (addStaked_gives hyper sender)
      ((puts.hasAccount sender).trans known) (clean.puts puts) positive.le (by simp)
      (by simp [UnstakingEntry.pot]) done, puts.amount]
    split
    · rename_i here
      subst here
      simp only [UnstakingEntry.pot, Function.update_self]
      omega
    · rename_i other
      rw [Function.update_of_ne, add_zero]
      intro same
      simp only [UnstakingEntry.pot, Pot.pending.injEq] at same
      exact other (by cases entry; simp_all)

end Transactions

section Hook

variable [PairsCodec]

def LedgerFalls (p : Formulator) (w w' : World Acc Ev) : Prop :=
  ∀ entry : UnstakingEntry, p.amount w' entry.pot ≤ p.amount w entry.pot

variable {p : Formulator} {w w' : World Acc Ev}

instance : Std.Refl (p.LedgerFalls : World Acc Ev → World Acc Ev → Prop) :=
  ⟨fun _ _ => le_refl _⟩

instance : IsTrans (World Acc Ev) p.LedgerFalls :=
  ⟨fun _ _ _ first second entry => le_trans (second entry) (first entry)⟩

theorem amount_commit_le (outer inner : World Acc Ev) (entry : UnstakingEntry) :
    p.amount (outer.commit inner) entry.pot ≤ p.amount inner entry.pot := by
  rw [amount_commit]
  split
  · exact p.amount_nonneg inner entry.pot
  · exact le_refl _

theorem LedgerFalls.of_processData (same : w'.processData = w.processData) :
    p.LedgerFalls w w' := by
  intro entry
  simp only [UnstakingEntry.pot, amount, pendingMap, storedMap, same, le_refl]

theorem LedgerFalls.nextBlock (env : Env) : p.LedgerFalls w (w.nextBlock env) :=
  .of_processData rfl

theorem ledgerFalls_admits [Account Acc] [SignedAccount Acc] [FormulatorCast Acc] [Event Ev]
    (p : Formulator) : p.AdmitsBlock (p.LedgerFalls : World Acc Ev → World Acc Ev → Prop) where
  process w pid name value writes := by
    intro entry
    by_cases hit : p.pid = pid ∧ toUnstakingAmountKey entry.height entry.staker = name
    · have none : value = [] := by
        apply writes hit.1.symm
        rw [← hit.2]
        rfl
      have empty : p.amount (w.setProcessData pid name value) entry.pot = 0 := by
        simp [UnstakingEntry.pot, amount, pendingMap, storedMap, World.setProcessData, hit, none]
      rw [empty]
      exact p.amount_nonneg w entry.pot
    · simp only [UnstakingEntry.pot, amount, pendingMap, storedMap, World.setProcessData, hit,
        if_false, le_refl]
  balance _ _ _ := .of_processData rfl
  data _ _ _ _ _ := .of_processData rfl
  counted w addr := .of_processData (w.updateAccount_processData addr _)
  returned w addr _ := .of_processData (w.updateAccount_processData addr _)
  deleted w acc := by
    unfold World.deleteAccount
    split <;> exact .of_processData rfl
  emitted _ _ := .of_processData rfl
  paid _ _ _ := .of_processData rfl

end Hook

/-- A transaction on the ledger, or the end of a block: its hook, and the context of the next. -/
inductive LedgerStep where
  | unstaking (signers : List PublicHash) (sender hyper : Address) (amount : Int)
  | revertUnstaking (signers : List PublicHash) (sender hyper : Address)
      (unstakedHeight : UInt32) (amount : Int)
  | endBlock (orders : MapOrders) (generator : Address) (env : Env)

def LedgerStep.reverted (entry : UnstakingEntry) : LedgerStep → Int
  | revertUnstaking _ sender hyper unstakedHeight amount =>
    if entry = ⟨unstakedHeight, sender, hyper⟩ then amount else 0
  | _ => 0

variable [PairsCodec] [HyperPolicyCodec] (p : Formulator)

/-- What goes into an entry, with the fee that may be taken from it. -/
def LedgerStep.unstaked (entry : UnstakingEntry) (w : World Acc Ev) : LedgerStep → Int
  | unstaking _ sender hyper amount =>
    if entry = ⟨p.unlockHeight w, sender, hyper⟩ then amount else 0
  | _ => 0

/-- A fee that the sender cannot pay is covered by the entry, and a revert leaves something in
the map of the staker. -/
def LedgerStep.Careful (entry : UnstakingEntry) (w : World Acc Ev) : LedgerStep → Prop
  | unstaking _ sender hyper amount => entry = ⟨p.unlockHeight w, sender, hyper⟩ →
      (StakingTx.unstaking sender hyper amount).Covered p w
  | revertUnstaking _ sender hyper unstakedHeight amount =>
    entry = ⟨unstakedHeight, sender, hyper⟩ → ¬p.Drains w unstakedHeight sender hyper amount
  | endBlock _ _ _ => True

variable [Account Acc] [SignedAccount Acc] [FormulatorCast Acc] [Event Ev] [FormulatorEvents Ev]
  [Base58] [PolicyCodecs]

def ledgerStep (w : World Acc Ev) : LedgerStep → Option (World Acc Ev)
  | .unstaking signers sender hyper amount =>
    w.transact ((unstaking sender hyper amount).run p signers)
  | .revertUnstaking signers sender hyper unstakedHeight amount =>
    w.transact ((revertUnstaking sender hyper unstakedHeight amount).run p signers)
  | .endBlock orders generator env =>
    match (p.afterExecuteTransactions orders generator).toProg.exec World.commit w with
    | (.ok _, w') => some (w'.nextBlock env)
    | (.error _, _) => none

/-- A sequence of steps, with the totals of an entry: what was unstaked into it, and what was
reverted. -/
def ledgerRun (entry : UnstakingEntry) :
    List LedgerStep → World Acc Ev → Option (Int × Int × World Acc Ev)
  | [], w => some (0, 0, w)
  | step :: rest, w =>
    match p.ledgerStep w step with
    | none => none
    | some mid =>
      match ledgerRun entry rest mid with
      | none => none
      | some (unstaked, reverted, w') =>
        some (step.unstaked p entry w + unstaked, step.reverted entry + reverted, w')

def CarefulRun (entry : UnstakingEntry) : List LedgerStep → World Acc Ev → Prop
  | [], _ => True
  | step :: rest, w => step.Careful p entry w ∧
      ∀ mid, p.ledgerStep w step = some mid → CarefulRun entry rest mid

variable [LawfulPairsCodec] {p} {w w' : World Acc Ev} {entry : UnstakingEntry}

theorem ledgerStep_entry {step : LedgerStep}
    (careful : step.Careful p entry w) (stepped : p.ledgerStep w step = some w') :
    p.amount w' entry.pot + step.reverted entry ≤ p.amount w entry.pot + step.unstaked p entry w := by
  have fresh := marked_snapshot (p := p) w
  cases step with
  | unstaking signers sender hyper amount =>
    obtain ⟨inner, ran, rfl⟩ := World.transact_eq_some.mp stepped
    obtain ⟨⟨positive, known⟩, _, done⟩ :=
      StakingTx.validate_asks p signers (.unstaking sender hyper amount) _ _ _ ran
    have raised := unstaking_entry (w := w.snapshot) entry positive known fresh careful done
    have committed := amount_commit_le (p := p) w inner entry
    simp only [LedgerStep.reverted, add_zero]
    exact committed.trans raised
  | revertUnstaking signers sender hyper unstakedHeight amount =>
    obtain ⟨inner, ran, rfl⟩ := World.transact_eq_some.mp stepped
    obtain ⟨⟨positive, known⟩, _, done⟩ := StakingTx.validate_asks p signers
      (.revertUnstaking sender hyper unstakedHeight amount) _ _ _ ran
    have lowered : p.amount inner entry.pot +
        (if entry = ⟨unstakedHeight, sender, hyper⟩ then amount else 0) = p.amount w entry.pot :=
      revertUnstaking_entry (w := w.snapshot) entry positive known fresh careful done
    have committed := amount_commit_le (p := p) w inner entry
    simp only [LedgerStep.reverted, LedgerStep.unstaked, add_zero]
    omega
  | endBlock orders generator env =>
    have keeps : (p.afterExecuteTransactions orders generator : Script Acc Ev Unit).Keeps
      World.commit p.LedgerFalls := p.ledgerFalls_admits.afterExecuteTransactions orders generator
    rcases ran : (p.afterExecuteTransactions orders generator).toProg.exec World.commit w with
      ⟨result, hooked⟩
    rw [ledgerStep, ran] at stepped
    cases result with
    | error err => cases stepped
    | ok _ =>
      cases stepped
      have falls : p.LedgerFalls w hooked := by
        obtain ⟨_, mid, _, falls, done⟩ := (keeps w).of_ok ran
        obtain rfl : mid = hooked := congrArg Prod.snd done
        exact falls
      simp only [LedgerStep.reverted, LedgerStep.unstaked, add_zero]
      exact (LedgerFalls.nextBlock env entry).trans (falls entry)

/-- What is reverted and what is left never exceed what was there and what was unstaked. -/
theorem ledgerRun_bounded {steps : List LedgerStep} {unstaked reverted : Int}
    (careful : p.CarefulRun entry steps w)
    (ran : p.ledgerRun entry steps w = some (unstaked, reverted, w')) :
    p.amount w' entry.pot + reverted ≤ p.amount w entry.pot + unstaked := by
  induction steps generalizing w unstaked reverted with
  | nil =>
    cases ran
    exact le_refl _
  | cons step rest ih =>
    rw [ledgerRun] at ran
    split at ran
    · cases ran
    · rename_i mid stepped
      have first := ledgerStep_entry careful.1 stepped
      split at ran
      · cases ran
      · rename_i later_unstaked later_reverted last later
        cases ran
        have second := ih (careful.2 mid stepped) later
        omega

/-- A call that passes lowers its entry exactly when something is left in the map of the staker,
and in a sequence of careful steps no more is reverted from an entry than was unstaked into it. -/
theorem unstaking_ledger (p : Formulator) :
    (∀ (w w' : World Acc Ev) (height : UInt32) (staker hyper : Address) (am : Int),
      (p.subUnstakingAmount hyper staker height am).toProg.exec World.commit w = (.ok (), w') →
      (p.Lowers height staker hyper am w w' ↔ ¬(am ≠ 0 ∧ p.Drains w height staker hyper am))) ∧
    ∀ (entry : UnstakingEntry) (steps : List LedgerStep) (w w' : World Acc Ev)
      (unstaked reverted : Int), p.ledgerRun entry steps w = some (unstaked, reverted, w') →
      p.CarefulRun entry steps w → reverted ≤ p.amount w entry.pot + unstaked := by
  constructor
  · intro w w' height staker hyper am passed
    exact lowers_iff_of_passed passed
  · intro entry steps w w' unstaked reverted ran careful
    have bounded := ledgerRun_bounded careful ran
    have left := p.amount_nonneg w' entry.pot
    omega

end Formulator

namespace LedgerInstances

open Instances StakingInstances

def twoCoins : World ChainAccount PlainEvent :=
  ((hyperChain ⟨100, 0, 1⟩ 1).stand stakerAddress
    (.present (.vault (.single ⟨stakerAddress, [], [7]⟩)))).stand someAddress
      (.present (.formulator { someHyper ⟨100, 0, 1⟩ with stakingAmount := 2 * coin }))
    |>.setAccountData someAddress someProcess.pid (Formulator.toStakingAmountKey stakerAddress)
      (toBytes (2 * coin))

def someEntry : Formulator.UnstakingEntry := ⟨1, stakerAddress, someAddress⟩

def unstakeAll : Formulator.LedgerStep := .unstaking [[7]] stakerAddress someAddress (2 * coin)

def revert (am : Int) : Formulator.LedgerStep :=
  .revertUnstaking [[7]] stakerAddress someAddress 1 am

def unstakedCoins : World ChainAccount PlainEvent :=
  (someProcess.ledgerStep twoCoins unstakeAll).getD twoCoins

/-- One of the coins is reverted. -/
theorem one_coin_reverted :
    (∃ w', (someProcess.subUnstakingAmount someAddress stakerAddress 1 coin).toProg.exec
        World.commit unstakedCoins = (.ok (), w') ∧
      someProcess.Lowers 1 stakerAddress someAddress coin unstakedCoins w') ∧
    ∃ unstaked reverted w', someProcess.ledgerRun someEntry [unstakeAll, revert coin]
        twoCoins = some (unstaked, reverted, w') ∧
      reverted ≤ someProcess.amount twoCoins someEntry.pot + unstaked := by
  have held : someProcess.amount unstakedCoins someEntry.pot ≠ coin := by decide +kernel
  have remains : ¬someProcess.Drains unstakedCoins 1 stakerAddress someAddress coin :=
    fun drains => held drains.amount
  have covered : twoCoins.defaultFee someProcess.vault ≤
      someProcess.amount twoCoins (.pending (someProcess.unlockHeight twoCoins) stakerAddress
        someAddress) + 2 * coin := by decide +kernel
  constructor
  · refine Script.exists_passed (by decide +kernel) fun w' ran => ?_
    exact ((Formulator.unstaking_ledger someProcess).1 _ _ _ _ _ _ ran).mpr
      fun both => remains both.2
  · have passed : (someProcess.ledgerRun someEntry [unstakeAll, revert coin]
      twoCoins).isSome = true := by decide +kernel
    obtain ⟨⟨unstaked, reverted, w'⟩, ran⟩ := Option.isSome_iff_exists.mp passed
    refine ⟨unstaked, reverted, w', ran,
      (Formulator.unstaking_ledger someProcess).2 _ _ _ _ _ _ ran ⟨fun _ => .inr covered, ?_⟩⟩
    intro mid stepped
    obtain rfl : unstakedCoins = mid := by rw [unstakedCoins, stepped, Option.getD_some]
    exact ⟨fun _ => remains, fun _ _ => trivial⟩

/-- All that is left of the two coins is reverted, and then it is reverted again. -/
theorem reverted_twice :
    (∃ w', (someProcess.subUnstakingAmount someAddress stakerAddress 1
        (19 * coin / 10)).toProg.exec World.commit unstakedCoins = (.ok (), w') ∧
      ¬someProcess.Lowers 1 stakerAddress someAddress (19 * coin / 10) unstakedCoins w') ∧
    ∃ unstaked reverted w', someProcess.ledgerRun someEntry
        [unstakeAll, revert (19 * coin / 10), revert (19 * coin / 10)] twoCoins =
          some (unstaked, reverted, w') ∧
      ¬reverted ≤ someProcess.amount twoCoins someEntry.pot + unstaked := by
  constructor
  · have kept :
        let outcome := (someProcess.subUnstakingAmount someAddress stakerAddress 1
          (19 * coin / 10)).toProg.exec World.commit unstakedCoins
        outcome.1 = .ok () ∧ someProcess.amount outcome.2 someEntry.pot ≠
          someProcess.amount unstakedCoins someEntry.pot - 19 * coin / 10 := by decide +kernel
    exact ⟨_, Prod.ext kept.1 rfl, fun lowers => kept.2 lowers.entry⟩
  · have more : (someProcess.ledgerRun someEntry
        [unstakeAll, revert (19 * coin / 10), revert (19 * coin / 10)] twoCoins).map
          (fun run => decide (run.2.1 ≤ someProcess.amount twoCoins someEntry.pot + run.1)) =
        some false := by decide +kernel
    obtain ⟨⟨unstaked, reverted, w'⟩, ran, exceeded⟩ := Option.map_eq_some_iff.mp more
    exact ⟨unstaked, reverted, w', ran, of_decide_eq_false exceeded⟩

end LedgerInstances

end Fleta
