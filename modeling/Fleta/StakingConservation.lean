import Fleta.StakingInstances
import Fleta.StakingLedger
import Fleta.VaultTransactions
import Mathlib.Algebra.Order.Group.Abs
import Mathlib.Algebra.Order.Ring.Int
import Mathlib.Data.FinEnum
import Mathlib.Data.Fintype.Prod
import Mathlib.Data.Fintype.Sum

/-!
# Staking transactions and the coins

A staking transaction is a sequence of changes of single pots. All coins together stay the
same when every change of a pot is stored as it is, and when what is written inside the
snapshot of the fee is still there after its commit. The condition for both is read off the
state before the transaction.
-/

namespace Fleta

open Script World Formulator Amount StakingTx

variable {Acc Ev α β : Type}

namespace Pot

def toSum : Pot → (Address ⊕ Unit) ⊕ (Address × Address) ⊕ (UInt32 × Address × Address)
  | balance addr => .inl (.inl addr)
  | collected => .inl (.inr ())
  | staked hyper staker => .inr (.inl (hyper, staker))
  | pending height staker hyper => .inr (.inr (height, staker, hyper))

theorem toSum_injective : Function.Injective toSum := by
  intro left right same
  cases left <;> cases right <;> simp_all [toSum]

noncomputable instance : Fintype Pot := Fintype.ofInjective toSum toSum_injective

end Pot

structure Conserved (bound : Int) (before after : Pot → Int) : Prop where
  total : ∑ pot, after pot = ∑ pot, before pot
  bounded : ∀ pot, |after pot - before pot| ≤ bound

theorem conserved_add_iff {bound : Int} (before change : Pot → Int) :
    Conserved bound before (before + change) ↔
      ∑ pot, change pot = 0 ∧ ∀ pot, |change pot| ≤ bound := by
  constructor
  · intro conserved
    have total := conserved.total
    have bounded := conserved.bounded
    simp only [Pi.add_apply, Finset.sum_add_distrib, add_sub_cancel_left] at total bounded
    exact ⟨by omega, bounded⟩
  · intro changed
    exact ⟨by simp [Finset.sum_add_distrib, changed.1], by simpa using changed.2⟩

section Changes

variable {source pot : Pot} {payer : Address} {amount fee spent credit : Int}

/-- The amount leaves a pot, the fee is collected, a balance pays what it has spent, and the
rest is credited. -/
theorem conserved_moved_iff (before : Pot → Int) (positive : 0 < amount) (nonneg : 0 ≤ spent)
    (most : spent ≤ fee) :
    Conserved (amount + fee) before (before + (Pi.single source (-amount) +
        (Pi.single (.balance payer) (-spent) + Pi.single .collected fee + Pi.single pot credit))) ↔
      credit = amount + spent - fee := by
  rw [conserved_add_iff]
  simp only [Pi.add_apply, Finset.sum_add_distrib, Finset.sum_pi_single', Finset.mem_univ, if_true]
  constructor
  · rintro ⟨total, _⟩
    omega
  · intro rest
    refine ⟨by omega, fun other => abs_le.mpr ?_⟩
    simp only [Pi.single_apply]
    split_ifs <;> omega

end Changes

namespace Formulator

variable [PairsCodec] {p : Formulator} {w w' : World Acc Ev} {pot : Pot} {am : Int}

theorem Puts.change (puts : p.Puts pot am w w') :
    p.amount w' = p.amount w + Pi.single pot (am.natAbs - p.amount w pot) := by
  rw [puts.amount]
  funext other
  by_cases same : other = pot
  · subst same
    simp
  · simp [same]

theorem Puts.adds {change : Int} (puts : p.Puts pot am w w')
    (sum : am = p.amount w pot + change) (nonneg : 0 ≤ am) :
    p.amount w' = p.amount w + Pi.single pot change := by
  rw [puts.change, Int.natAbs_of_nonneg nonneg, sum, add_sub_cancel_left]

theorem amount_commit (outer inner : World Acc Ev) (pot : Pot) :
    p.amount (outer.commit inner) pot = if p.marked outer pot then 0 else p.amount inner pot := by
  cases pot with
  | balance addr =>
    by_cases mark : outer.emptied addr p.vault.pid Vault.tagBalance = true <;>
      simp [marked, amount, balance, commit, mark]
  | collected =>
    by_cases mark : outer.emptiedProcess p.vault.pid Vault.tagCollectedFee = true <;>
      simp [marked, amount, collectedFee, commit, mark]
  | staked hyper staker =>
    by_cases mark : outer.emptied hyper p.pid (toStakingAmountKey staker) = true <;>
      simp [marked, amount, commit, mark]
  | pending height staker hyper =>
    by_cases mark : outer.emptiedProcess p.pid (toUnstakingAmountKey height staker) = true <;>
      simp [marked, amount, pendingMap, storedMap, commit, mark]

omit [PairsCodec] in
theorem marked_snapshot (w : World Acc Ev) (pot : Pot) : p.marked w.snapshot pot = false := by
  cases pot <;> rfl

@[simp] theorem amount_snapshot (w : World Acc Ev) : p.amount w.snapshot = p.amount w := rfl

variable {outer inner : World Acc Ev}

theorem amount_commit_of_kept (kept : ∀ pot, p.marked outer pot = true → p.amount inner pot = 0) :
    p.amount (outer.commit inner) = p.amount inner := by
  funext pot
  rw [amount_commit]
  split
  · rename_i mark
    exact (kept pot mark).symm
  · rfl

def Clean (p : Formulator) (w : World Acc Ev) : Prop :=
  ∀ pot, p.marked w pot = true → p.amount w pot = 0

theorem Clean.of_unmarked (fresh : ∀ pot, p.marked w pot = false) : p.Clean w := by
  intro pot mark
  rw [fresh] at mark
  cases mark

theorem Clean.puts (clean : p.Clean w) (puts : p.Puts pot am w w') : p.Clean w' := by
  intro other mark
  rw [puts.amount]
  rcases puts.marked other mark with ⟨same, zero⟩ | ⟨different, old⟩
  · rw [same, Function.update_self, zero]
    rfl
  · rw [Function.update_of_ne different, clean other old]

theorem Clean.same (clean : p.Clean w) (same : p.SameBut w w') : p.Clean w' := by
  intro pot mark
  rw [same.amount]
  exact clean pot (same.marked ▸ mark)

theorem committed_change (clean : p.Clean outer)
    (puts : p.Puts pot am outer.snapshot inner) (unmarked : p.marked outer pot = false) :
    p.amount (outer.commit inner) = p.amount outer + Pi.single pot (am.natAbs - p.amount outer pot) := by
  have change := puts.change
  rw [amount_commit_of_kept, change]
  · rfl
  · intro other mark
    have different : other ≠ pot := by
      rintro rfl
      rw [unmarked] at mark
      cases mark
    rw [puts.amount, Function.update_of_ne different]
    exact clean other mark

/-- What is put into a marked pot inside a snapshot is lost. -/
theorem committed_lost (clean : p.Clean outer)
    (puts : p.Puts pot am outer.snapshot inner) (mark : p.marked outer pot = true) :
    p.amount (outer.commit inner) = p.amount outer := by
  funext other
  rw [amount_commit]
  split
  · rename_i other_mark
    exact (clean other other_mark).symm
  · rename_i unmarked
    have different : other ≠ pot := by
      rintro rfl
      exact unmarked mark
    rw [puts.amount, Function.update_of_ne different]
    rfl

section Fee

variable (sender : Address)

theorem puts_charged_balance : p.Puts (.balance sender)
    (w.balance p.vault sender - w.defaultFee p.vault) w
      (w.setBalance p.vault sender (w.balance p.vault sender - w.defaultFee p.vault)) :=
  puts_balance sender _

theorem puts_charged_collected : p.Puts .collected (w.collectedFee p.vault + w.defaultFee p.vault)
      (w.setBalance p.vault sender (w.balance p.vault sender - w.defaultFee p.vault))
      (w.charged p.vault sender) :=
  puts_collected _

theorem charged_clean (clean : p.Clean w) : p.Clean (w.charged p.vault sender) :=
  (clean.puts (puts_charged_balance sender)).puts (puts_charged_collected sender)

theorem charged_change (enough : w.defaultFee p.vault ≤ w.balance p.vault sender) :
    p.amount (w.charged p.vault sender) = p.amount w +
      Pi.single (.balance sender) (-w.defaultFee p.vault) +
        Pi.single .collected (w.defaultFee p.vault) := by
  have fee := w.defaultFee_nonneg p.vault
  have held := w.collectedFee_nonneg p.vault
  have collected := (puts_charged_collected (p := p) (w := w) sender).adds rfl (by omega)
  have paid := (puts_charged_balance (p := p) (w := w) sender).adds rfl (by omega)
  rw [collected, paid]

omit [PairsCodec] in
theorem charged_marked (apart : pot ≠ .balance sender ∧ pot ≠ .collected) :
    p.marked (w.charged p.vault sender) pot = p.marked w pot := by
  have payer : p.cell pot ≠ p.cell (.balance sender) :=
    fun same => absurd (cell_eq same) (by simp [apart.1])
  have collected : p.cell pot ≠ p.cell .collected :=
    fun same => absurd (cell_eq same) (by simp [apart.2])
  exact (agreeAt_setProcessData collected).marked.trans (agreeAt_setAccountData payer).marked

end Fee

variable [Account Acc] [Event Ev] [Base58] {sender : Address} {amount : Int}
  {move : Int → Script Acc Ev Unit}

omit [PairsCodec] in
theorem exec_checkFeePayable (join : World Acc Ev → World Acc Ev → World Acc Ev)
    (known : w.hasAccount sender = .ok true) (next : Except Err Unit → Prog Acc Ev) :
    (p.vault.checkFeePayable sender next).exec join w =
      (next (if w.balance p.vault sender < w.defaultFee p.vault then .error .insufficientFee
        else .ok ())).exec join w := by
  simp [Vault.checkFeePayable, Vault.checkFeePayableWith, known]

def Gives (p : Formulator) (pot : Pot) (move : Int → Script Acc Ev Unit) : Prop :=
  ∀ am w w', (move am).toProg.exec commit w = (.ok (), w') → p.Puts pot (p.amount w pot + am) w w'

/-- What the balance of the sender pays of the fee. -/
def spent (p : Formulator) (w : World Acc Ev) (sender : Address) : Int :=
  if w.defaultFee p.vault ≤ w.balance p.vault sender then w.defaultFee p.vault else 0

def credit (p : Formulator) (w : World Acc Ev) (sender : Address) (pot : Pot) (amount : Int) : Int :=
  if w.defaultFee p.vault ≤ w.balance p.vault sender then
    if p.marked w pot then 0 else amount
  else (p.amount w pot + (amount - w.defaultFee p.vault)).natAbs - p.amount w pot

omit [Account Acc] [Event Ev] [Base58] [PairsCodec] in
theorem spent_bounds (w : World Acc Ev) (sender : Address) :
    0 ≤ p.spent w sender ∧ p.spent w sender ≤ w.defaultFee p.vault := by
  have fee := w.defaultFee_nonneg p.vault
  unfold spent
  split <;> omega

omit [Account Acc] [Event Ev] [Base58] in
theorem credit_eq_iff (w : World Acc Ev) (sender : Address) (pot : Pot) (positive : 0 < amount) :
    p.credit w sender pot amount = amount + p.spent w sender - w.defaultFee p.vault ↔
      if w.defaultFee p.vault ≤ w.balance p.vault sender then p.marked w pot = false
      else w.defaultFee p.vault ≤ p.amount w pot + amount := by
  have held := p.amount_nonneg w pot
  unfold spent credit
  split
  · cases p.marked w pot <;> simp
    omega
  · omega

variable (gives : p.Gives pot move) (known : w.hasAccount sender = .ok true)
  (apart : pot ≠ .balance sender ∧ pot ≠ .collected)

include gives known apart

theorem payFrom_moves (clean : p.Clean w) (nonneg : 0 ≤ amount)
    (done : (p.payFrom sender amount move).toProg.exec commit w = (.ok (), w')) :
    p.amount w' = p.amount w + (Pi.single (.balance sender) (-p.spent w sender) +
      Pi.single .collected (w.defaultFee p.vault) +
      Pi.single pot (p.credit w sender pot amount)) := by
  have fee := w.defaultFee_nonneg p.vault
  unfold spent credit
  by_cases enough : w.defaultFee p.vault ≤ w.balance p.vault sender
  · simp only [payFrom, toProg, bind_apply, exec_checkFeePayable _ known, not_lt.mpr enough,
      if_false, Vault.exec_withFee] at done
    obtain ⟨inner, moved, done⟩ := within_ok done
    obtain rfl : (w.charged p.vault sender).commit inner = w' := congrArg Prod.snd done
    have puts := gives amount _ inner moved
    have marks := charged_marked (p := p) (w := w) sender apart
    have clean := charged_clean sender clean
    have held := p.amount_nonneg (w.charged p.vault sender) pot
    rw [if_pos enough, if_pos enough, ← add_assoc, ← add_assoc, ← charged_change sender enough]
    by_cases mark : p.marked w pot = true
    · rw [if_pos mark, Pi.single_zero, add_zero]
      exact committed_lost clean puts (marks.trans mark)
    · rw [if_neg mark, committed_change clean puts (marks.trans (Bool.not_eq_true _ ▸ mark)),
        amount_snapshot, Int.natAbs_of_nonneg (by omega), add_sub_cancel_left]
  · have held := w.collectedFee_nonneg p.vault
    simp only [payFrom, toProg, bind_apply, exec_checkFeePayable _ known, not_le.mp enough, if_true,
      Vault.exec_getDefaultFee, Vault.exec_addCollectedFee _ _ _ _ fee] at done
    have collected := (puts_collected (p := p) (w := w)
      (w.collectedFee p.vault + w.defaultFee p.vault)).adds rfl (by omega)
    have same : p.amount (w.setCollectedFee p.vault
        (w.collectedFee p.vault + w.defaultFee p.vault)) pot = p.amount w pot := by
      rw [collected]
      simp [apart.2]
    rw [if_neg enough, if_neg enough, (gives _ _ _ done).change, same, collected, neg_zero,
      Pi.single_zero, zero_add, add_assoc]

variable {mid : World Acc Ev}

theorem payFrom_conserved_iff {source : Pot}
    (frame : p.Frame w mid) (clean : p.Clean mid) (other : source ≠ .balance sender)
    (positive : 0 < amount) (lowered : p.amount mid = p.amount w + Pi.single source (-amount))
    (done : (p.payFrom sender amount move).toProg.exec commit mid = (.ok (), w')) :
    Conserved (amount + w.defaultFee p.vault) (p.amount w) (p.amount w') ↔
      if w.defaultFee p.vault ≤ w.balance p.vault sender then p.marked mid pot = false
      else w.defaultFee p.vault ≤ p.amount mid pot + amount := by
  have known : mid.hasAccount sender = .ok true := (frame.hasAccount sender).trans known
  have balance : mid.balance p.vault sender = w.balance p.vault sender := by
    have held := congrFun lowered (.balance sender)
    rwa [Pi.add_apply, Pi.single_eq_of_ne other.symm, add_zero] at held
  have moves := payFrom_moves gives known apart clean positive.le done
  have bounds := p.spent_bounds mid sender
  rw [← frame.defaultFee, ← balance, ← credit_eq_iff mid sender pot positive, moves, lowered,
    add_assoc]
  exact conserved_moved_iff _ positive bounds.1 bounds.2

theorem payFrom_gains (same : p.SameBut w mid) (clean : p.Clean mid) (positive : 0 < amount)
    (unmarked : p.marked mid pot = false) {bound : Int}
    (done : (p.payFrom sender amount move).toProg.exec commit mid = (.ok (), w')) :
    ¬Conserved bound (p.amount w) (p.amount w') := by
  have known : mid.hasAccount sender = .ok true := (same.hasAccount sender).trans known
  have held := p.amount_nonneg mid pot
  have gain : 0 < p.credit mid sender pot amount - p.spent mid sender + mid.defaultFee p.vault := by
    unfold credit spent
    simp only [unmarked, Bool.false_eq_true, if_false]
    split <;> omega
  rw [payFrom_moves gives known apart clean positive.le done, same.amount, conserved_add_iff]
  simp only [Pi.add_apply, Finset.sum_add_distrib, Finset.sum_pi_single', Finset.mem_univ, if_true]
  rintro ⟨total, _⟩
  omega

end Formulator

section Validate

variable [Account Acc] [Event Ev] [Base58] [FormulatorAccounts Acc] [PairsCodec]
  {join : World Acc Ev → World Acc Ev → World Acc Ev}

section

omit [PairsCodec]

variable (addr : Address)

theorem toHyperFormulator_asks :
    (toHyperFormulator addr : Script Acc Ev Formulation).Asks join fun _ => True := by
  apply (Asks.account addr).later
  intro acc
  apply (Asks.check acc).later
  intro acc
  split
  · exact .fail _
  · split
    · exact .fail _
    · exact .pure _

theorem assertFormulator_asks :
    (assertFormulator addr : Script Acc Ev Formulation).Asks join fun _ => True := by
  apply (Asks.account addr).later
  intro acc
  apply (Asks.check acc).later
  intro acc
  split
  · exact .fail _
  · exact .pure _

theorem validateSender_asks (sender : Address) (signers : List PublicHash) :
    (validateSender sender signers : Script Acc Ev Unit).Asks join
      fun w => w.hasAccount sender = .ok true := by
  have whole : (validateSender sender signers : Script Acc Ev Unit) =
      (account sender >>= check) >>= fun acc => check (FormulatorAccounts.validate acc signers) := rfl
  rw [whole]
  exact (Asks.checkAccount sender).first fun _ => .check _

end

variable (p : Formulator)

omit [FormulatorAccounts Acc] [PairsCodec] in
theorem validateStaked_asks (hyper sender : Address) (frAcc : Formulation) (amount : Int) :
    (p.validateStaked hyper sender frAcc amount : Script Acc Ev Unit).Asks join fun _ => True := by
  have read : (p.getStakingAmount hyper sender : Script Acc Ev Int).Asks join fun _ => True :=
    (Asks.accountData _ _ _).later fun _ => .pure _
  apply read.later
  intro held
  split
  · exact .fail _
  · split
    · exact .fail _
    · exact .pure _

omit [FormulatorAccounts Acc] in
theorem getUnstakingAmount_asks (hyper sender : Address) (height : UInt32) :
    (p.getUnstakingAmount hyper sender height : Script Acc Ev (Except Err Int)).Asks join
      fun _ => True := by
  intro w w' next done
  simp only [getUnstakingAmount, bind_apply, exec_getUnstakingAmountMap] at done
  cases stored : p.storedMap w height sender with
  | error err =>
    rw [stored] at done
    exact ⟨trivial, _, done⟩
  | ok mp =>
    rw [stored] at done
    exact ⟨trivial, _, done⟩

theorem StakingTx.validate_asks (signers : List PublicHash) (tx : StakingTx) :
    (tx.validate p signers : Script Acc Ev Unit).Asks join
      fun w => 0 < tx.amount ∧ w.hasAccount tx.sender = .ok true := by
  have coin : 0 < coin / 10 ∧ 0 < coin := by decide
  cases tx with
  | staking sender hyper amount =>
    simp only [validate]
    split
    · exact .failed _
    apply Asks.known (show 0 < amount by omega)
    split
    · exact .failed _
    apply (toHyperFormulator_asks hyper).later
    intro frAcc
    apply (Asks.check _).later
    intro _
    apply (validateSender_asks sender signers).first
    intro _
    exact (Vault.checkFeePayableWith_asks _ _ _ _).later .check
  | unstaking sender hyper amount =>
    simp only [validate]
    split
    · exact .failed _
    apply Asks.known (show 0 < amount by omega)
    apply (toHyperFormulator_asks hyper).later
    intro frAcc
    apply (validateSender_asks sender signers).first
    intro _
    exact validateStaked_asks p hyper sender frAcc amount
  | revertUnstaking sender hyper unstakedHeight amount =>
    simp only [validate]
    split
    · exact .failed _
    apply Asks.known (show 0 < amount by omega)
    apply (toHyperFormulator_asks hyper).later
    intro _
    apply (validateSender_asks sender signers).first
    intro _
    apply (getUnstakingAmount_asks p hyper sender unstakedHeight).later
    intro held
    apply (Asks.check held).later
    intro held
    split
    · exact .fail _
    · exact .pure _
  | changeStaking sender hyperUnstaking hyperStaking amount =>
    simp only [validate]
    split
    · exact .failed _
    apply Asks.known (show 0 < amount by omega)
    split
    · exact .failed _
    apply (toHyperFormulator_asks hyperUnstaking).later
    intro frUnstaking
    apply (validateStaked_asks p hyperUnstaking sender frUnstaking amount).later
    intro _
    apply (toHyperFormulator_asks hyperStaking).later
    intro frStaking
    apply (Asks.check _).later
    intro _
    exact validateSender_asks sender signers

end Validate

section Execute

variable [Account Acc] [Event Ev] [Base58] [FormulatorAccounts Acc] [PairsCodec]
  [LawfulPairsCodec] [HyperPolicyCodec] {p : Formulator} {w w' : World Acc Ev}

omit [FormulatorAccounts Acc] [HyperPolicyCodec] in
theorem addUnstakingAmount_gives (hyper sender : Address) (height : UInt32) :
    p.Gives (.pending height sender hyper)
      fun am => (p.addUnstakingAmount hyper sender height am : Script Acc Ev Unit) := by
  intro am w w' done
  obtain ⟨mid, puts, done⟩ := addUnstakingAmount_ok done
  obtain rfl : mid = w' := congrArg Prod.snd done
  exact puts

omit [LawfulPairsCodec] [HyperPolicyCodec] in
theorem addStaked_gives (hyper sender : Address) :
    p.Gives (.staked hyper sender) fun am => (do
      p.addStakingAmount hyper sender am
      addToTotal hyper am : Script Acc Ev Unit) := by
  intro am w w' done
  obtain ⟨mid, puts, added⟩ := addStakingAmount_runs hyper sender am w
  obtain ⟨last, same, total⟩ := addToTotal_runs hyper am mid
  have done := (added.bind total _).symm.trans done
  obtain rfl : last = w' := congrArg Prod.snd done
  exact puts.before same

def Formulator.unlockHeight (p : Formulator) (w : World Acc Ev) : UInt32 :=
  w.env.targetHeight +
    match HyperPolicyCodec.stakingUnlockRequiredBlocks (w.processData p.pid tagHyperPolicy) with
    | .ok blocks => blocks
    | .error _ => 0

/-- What is left to pay the fee covers it, what is reverted is not all that the staker has
unstaked for the height, and a stake that is moved as a whole is not moved to where it was. -/
def StakingTx.Covered (p : Formulator) (w : World Acc Ev) : StakingTx → Prop
  | staking _ _ _ => True
  | unstaking sender hyper amount =>
    w.defaultFee p.vault ≤ w.balance p.vault sender ∨
      w.defaultFee p.vault ≤ p.amount w (.pending (p.unlockHeight w) sender hyper) + amount
  | revertUnstaking sender hyper unstakedHeight amount =>
    ¬p.Drains w unstakedHeight sender hyper amount ∧
      (w.defaultFee p.vault ≤ w.balance p.vault sender ∨
        w.defaultFee p.vault ≤ p.amount w (.staked hyper sender) + amount)
  | changeStaking sender hyperUnstaking hyperStaking amount =>
    if w.defaultFee p.vault ≤ w.balance p.vault sender then
      ¬(hyperUnstaking = hyperStaking ∧ p.amount w (.staked hyperUnstaking sender) = amount)
    else if hyperUnstaking = hyperStaking then
      w.defaultFee p.vault ≤ p.amount w (.staked hyperUnstaking sender)
    else w.defaultFee p.vault ≤ p.amount w (.staked hyperStaking sender) + amount

variable {hyper sender : Address} {amount : Int}

omit [LawfulPairsCodec] [HyperPolicyCodec] in
theorem lowerStake_ok {next : Unit → Prog Acc Ev}
    {join : World Acc Ev → World Acc Ev → World Acc Ev}
    (done : (p.subStakingAmount hyper sender amount fun result =>
      check result fun _ => addToTotal hyper (-amount) next).exec join w = (.ok (), w')) :
    amount ≤ p.amount w (.staked hyper sender) ∧
      ∃ mid, p.Puts (.staked hyper sender) (p.amount w (.staked hyper sender) - amount) w mid ∧
        (p.amount w (.staked hyper sender) = amount → p.marked mid (.staked hyper sender) = true) ∧
        (next ()).exec join mid = (.ok (), w') := by
  by_cases enough : amount ≤ p.amount w (.staked hyper sender)
  · obtain ⟨lowered, puts, emptied, run⟩ := subStakingAmount_runs enough
    obtain ⟨mid, same, total⟩ := addToTotal_runs hyper (-amount) lowered
    rw [run] at done
    have done := (total _).symm.trans done
    exact ⟨enough, mid, puts.before same, fun all => same.marked ▸ emptied all, done⟩
  · rw [subStakingAmount_short (not_le.mp enough)] at done
    cases done

omit [LawfulPairsCodec] in
theorem unstaking_ok
    (done : ((unstaking sender hyper amount).execute p : Script Acc Ev Unit).toProg.exec
      commit w = (.ok (), w')) :
    amount ≤ p.amount w (.staked hyper sender) ∧
      ∃ mid, p.Puts (.staked hyper sender) (p.amount w (.staked hyper sender) - amount) w mid ∧
        (p.payFrom sender amount fun am =>
          p.addUnstakingAmount hyper sender (p.unlockHeight w) am).toProg.exec commit mid =
            (.ok (), w') := by
  obtain ⟨_, _, done⟩ := assertFormulator_asks hyper _ _ _ done
  obtain ⟨enough, mid, puts, _, done⟩ := lowerStake_ok done
  refine ⟨enough, mid, puts, ?_⟩
  simp only [bind_apply, exec_processData, puts.policy] at done
  cases decoded : HyperPolicyCodec.stakingUnlockRequiredBlocks
      (w.processData p.pid tagHyperPolicy) with
  | error err =>
    rw [decoded] at done
    cases done
  | ok blocks =>
    have height : mid.env.targetHeight + blocks = p.unlockHeight w := by
      rw [unlockHeight, decoded, puts.env]
    simp only [decoded, check, pure_apply, exec_env, height] at done
    exact done

section

variable (positive : 0 < amount) (fresh : ∀ pot, p.marked w pot = false) (known : w.hasAccount sender = .ok true)

include positive

omit [LawfulPairsCodec] [HyperPolicyCodec] in
theorem stakeBalance_ok {payer : Address}
    (done : (do
      p.vault.subBalance payer amount
      p.addStakingAmount hyper sender amount
      addToTotal hyper amount : Script Acc Ev Unit).toProg.exec commit w = (.ok (), w')) :
    amount ≤ w.balance p.vault payer ∧
      p.amount w' = p.amount w + Pi.single (.balance payer) (-amount) +
        Pi.single (.staked hyper sender) amount := by
  simp only [toProg, bind_apply, Vault.exec_subBalance] at done
  split at done
  · cases done
  rename_i enough
  have paid := (puts_balance (p := p) (w := w) payer
    (w.balance p.vault payer - amount)).adds rfl (by omega)
  have staked := addStaked_gives hyper sender amount _ _ done
  have held : 0 ≤ p.amount (w.setBalance p.vault payer (w.balance p.vault payer - amount))
    (.staked hyper sender) := p.amount_nonneg _ _
  rw [staked.adds rfl (by omega), paid]
  exact ⟨not_lt.mp enough, rfl⟩

include fresh

omit [LawfulPairsCodec] in
/-- The balance that the fee leaves is not emptied before the snapshot, because the amount
is still to come out of it. -/
theorem staking_conserved
    (done : ((staking sender hyper amount).execute p : Script Acc Ev Unit).toProg.exec
      commit w = (.ok (), w')) :
    Conserved (amount + w.defaultFee p.vault) (p.amount w) (p.amount w') := by
  have fee := w.defaultFee_nonneg p.vault
  rw [execute, toProg, Vault.exec_withFee] at done
  split at done
  · cases done
  rename_i enough
  have charged := charged_change (p := p) sender (not_lt.mp enough)
  have clean := charged_clean sender (Formulator.Clean.of_unmarked fresh)
  have marks : p.marked (w.charged p.vault sender) (.staked hyper sender) = false :=
    (charged_marked sender (by simp)).trans (fresh _)
  obtain ⟨inner, ran, done⟩ := within_ok done
  obtain rfl : (w.charged p.vault sender).commit inner = w' := congrArg Prod.snd done
  obtain ⟨_, _, ran⟩ := assertFormulator_asks hyper _ _ _ ran
  obtain ⟨_, _, ran⟩ := Asks.account sender _ _ _ ran
  obtain ⟨_, fromAcc, ran⟩ := Asks.check _ _ _ _ ran
  obtain ⟨afford, staked⟩ := stakeBalance_ok positive ran
  rw [amount_snapshot] at staked
  have kept : ∀ pot, p.marked (w.charged p.vault sender) pot = true → p.amount inner pot = 0 := by
    intro pot mark
    have empty := clean pot mark
    have notPayer : pot ≠ .balance (Account.address fromAcc) := by
      rintro rfl
      have none : (w.charged p.vault sender).snapshot.balance p.vault (Account.address fromAcc) = 0 :=
        empty
      omega
    have notStaked : pot ≠ .staked hyper sender := by
      rintro rfl
      rw [marks] at mark
      cases mark
    rw [staked]
    simp [empty, notPayer, notStaked]
  rw [amount_commit_of_kept kept, staked, charged]
  simp only [add_assoc]
  rw [conserved_add_iff]
  simp only [Pi.add_apply, Finset.sum_add_distrib, Finset.sum_pi_single', Finset.mem_univ, if_true]
  refine ⟨by omega, fun other => abs_le.mpr ?_⟩
  simp only [Pi.single_apply]
  split_ifs <;> omega

include known

theorem unstaking_conserved_iff
    (done : ((unstaking sender hyper amount).execute p : Script Acc Ev Unit).toProg.exec
      commit w = (.ok (), w')) :
    Conserved (amount + w.defaultFee p.vault) (p.amount w) (p.amount w') ↔
      (unstaking sender hyper amount).Covered p w := by
  obtain ⟨enough, mid, puts, done⟩ := unstaking_ok done
  have lowered := puts.adds rfl (by omega)
  have clean := (Formulator.Clean.of_unmarked fresh).puts puts
  have unmarked := puts.unmarked (fresh (.pending (p.unlockHeight w) sender hyper)) (by simp)
  have held : p.amount mid (.pending (p.unlockHeight w) sender hyper) =
      p.amount w (.pending (p.unlockHeight w) sender hyper) := by
    rw [lowered]
    simp
  rw [payFrom_conserved_iff (addUnstakingAmount_gives hyper sender _) known (by simp)
    puts.toFrame clean (by simp) positive lowered done, unmarked, held, StakingTx.Covered]
  split <;> simp_all

omit [LawfulPairsCodec] in
theorem changeStaking_conserved_iff {hyperUnstaking hyperStaking : Address}
    (done : ((changeStaking sender hyperUnstaking hyperStaking amount).execute p :
      Script Acc Ev Unit).toProg.exec commit w = (.ok (), w')) :
    Conserved (amount + w.defaultFee p.vault) (p.amount w) (p.amount w') ↔
      (changeStaking sender hyperUnstaking hyperStaking amount).Covered p w := by
  obtain ⟨_, _, done⟩ := toHyperFormulator_asks hyperUnstaking _ _ _ done
  obtain ⟨enough, mid, puts, emptied, done⟩ := lowerStake_ok done
  obtain ⟨_, _, done⟩ := toHyperFormulator_asks hyperStaking _ _ _ done
  have lowered := puts.adds rfl (by omega)
  have clean := (Formulator.Clean.of_unmarked fresh).puts puts
  rw [payFrom_conserved_iff (addStaked_gives hyperStaking sender) known (by simp)
    puts.toFrame clean (by simp) positive lowered done, StakingTx.Covered]
  by_cases same : hyperUnstaking = hyperStaking
  · -- the stake that is left is raised again, unless all of it was taken before the snapshot
    subst same
    have held : p.amount mid (.staked hyperUnstaking sender) =
        p.amount w (.staked hyperUnstaking sender) - amount := by
      rw [lowered]
      simp [sub_eq_add_neg]
    have marks : p.marked mid (.staked hyperUnstaking sender) = false ↔
        ¬p.amount w (.staked hyperUnstaking sender) = amount := by
      constructor
      · intro unmarked all
        rw [emptied all] at unmarked
        cases unmarked
      · intro rest
        exact puts.unmarked (fresh _) fun _ => by omega
    simp only [held, marks, sub_add_cancel, true_and, if_true]
  · have unmarked := puts.unmarked (fresh (.staked hyperStaking sender)) (by simp [Ne.symm same])
    have held : p.amount mid (.staked hyperStaking sender) =
        p.amount w (.staked hyperStaking sender) := by
      rw [lowered]
      simp [Ne.symm same]
    simp only [unmarked, held, same, false_and, not_false_iff, if_false]

theorem revertUnstaking_conserved_iff {unstakedHeight : UInt32}
    (done : ((revertUnstaking sender hyper unstakedHeight amount).execute p :
      Script Acc Ev Unit).toProg.exec commit w = (.ok (), w')) :
    Conserved (amount + w.defaultFee p.vault) (p.amount w) (p.amount w') ↔
      (revertUnstaking sender hyper unstakedHeight amount).Covered p w := by
  obtain ⟨_, _, done⟩ := assertFormulator_asks hyper _ _ _ done
  obtain ⟨mid, enough, drained, left, done⟩ := subUnstakingAmount_ok done
  have clean := Formulator.Clean.of_unmarked fresh
  rw [StakingTx.Covered]
  by_cases drains : p.Drains w unstakedHeight sender hyper amount
  · have same := drained drains
    simp only [drains, not_true, false_and, iff_false]
    exact payFrom_gains (addStaked_gives hyper sender) known (by simp) same
      (clean.same same) positive (same.marked ▸ fresh _) done
  · have puts := (left drains).1
    have lowered := puts.adds rfl (by omega)
    have unmarked := puts.unmarked (fresh (.staked hyper sender)) (by simp)
    have held : p.amount mid (.staked hyper sender) = p.amount w (.staked hyper sender) := by
      rw [lowered]
      simp
    rw [payFrom_conserved_iff (addStaked_gives hyper sender) known (by simp)
      puts.toFrame (clean.puts puts) (by simp) positive lowered done, unmarked, held]
    split <;> simp_all

end

/-- A transaction that passes in a new layer conserves the coins exactly when it is covered. -/
theorem StakingTx.run_conserved_iff (p : Formulator) (signers : List PublicHash) (tx : StakingTx)
    (w w' : World Acc Ev)
    (passed : (tx.run p signers).toProg.exec commit w.snapshot = (.ok (), w')) :
    Conserved (tx.amount + w.defaultFee p.vault) (p.amount w) (p.amount w') ↔ tx.Covered p w := by
  obtain ⟨⟨positive, known⟩, _, done⟩ := tx.validate_asks p signers _ _ _ passed
  have fresh := marked_snapshot (p := p) w
  cases tx with
  | staking sender hyper amount =>
    exact ⟨fun _ => trivial, fun _ => staking_conserved (w := w.snapshot) positive fresh done⟩
  | unstaking sender hyper amount => exact unstaking_conserved_iff (w := w.snapshot) positive fresh known done
  | revertUnstaking sender hyper unstakedHeight amount =>
    exact revertUnstaking_conserved_iff (w := w.snapshot) positive fresh known done
  | changeStaking sender hyperUnstaking hyperStaking amount =>
    exact changeStaking_conserved_iff (w := w.snapshot) positive fresh known done

end Execute

namespace StakingInstances

open Instances

def unstakeCoin : StakingTx := .unstaking stakerAddress hyperAddress coin

/-- A fee of a tenth of a coin is paid from the coin that is unstaked. -/
theorem unstaking_pays_from_amount : ∃ w' : World StakeAccount PlainEvent,
    (unstakeCoin.run formulatorProcess []).toProg.exec commit
        (stakedWorld coin).snapshot = (.ok (), w') ∧
      Conserved (coin + coin / 10) (formulatorProcess.amount (stakedWorld coin))
        (formulatorProcess.amount w') := by
  refine exists_passed (by decide +kernel) fun w' ran => ?_
  have covered : (stakedWorld coin).defaultFee formulatorProcess.vault ≤
      formulatorProcess.amount (stakedWorld coin)
        (.pending (formulatorProcess.unlockHeight (stakedWorld coin)) stakerAddress hyperAddress) +
      coin := by decide +kernel
  exact (run_conserved_iff formulatorProcess [] unstakeCoin (stakedWorld coin) w'
    ran).mpr (.inr covered)

def expensiveWorld : World StakeAccount PlainEvent :=
  (stakedWorld coin).setProcessData formulatorProcess.vault.pid Vault.tagDefaultFee
    (toBytes (3 * coin))

/-- Two coins that the staker owes are stored as two coins that are paid out. -/
theorem unstaking_creates_coins : ∃ w' : World StakeAccount PlainEvent,
    (unstakeCoin.run formulatorProcess []).toProg.exec commit expensiveWorld.snapshot =
        (.ok (), w') ∧
      ¬Conserved (unstakeCoin.amount + expensiveWorld.defaultFee formulatorProcess.vault)
        (formulatorProcess.amount expensiveWorld) (formulatorProcess.amount w') := by
  refine exists_passed (by decide +kernel) fun w' ran => ?_
  obtain ⟨⟨positive, known⟩, _, done⟩ := validate_asks formulatorProcess [] unstakeCoin _ _ _ ran
  have fresh := marked_snapshot (p := formulatorProcess) expensiveWorld
  have uncovered : ¬(expensiveWorld.defaultFee formulatorProcess.vault ≤
        expensiveWorld.balance formulatorProcess.vault stakerAddress ∨
      expensiveWorld.defaultFee formulatorProcess.vault ≤ formulatorProcess.amount expensiveWorld
        (.pending (formulatorProcess.unlockHeight expensiveWorld) stakerAddress hyperAddress) +
        coin) := by decide +kernel
  refine fun conserved => uncovered ?_
  exact (unstaking_conserved_iff (w := expensiveWorld.snapshot) positive fresh known done).mp
    conserved

end StakingInstances

end Fleta
