import Fleta.FormulatorAccount

/-!
# Merging formulators

`CreateSigma` merges alpha formulators and `CreateOmega` merges sigma formulators into the
first one of a list. The two transactions differ in the types, in the policy and in one
error. The account of the first formulator is held by a pointer while the other ones are
read, added to it and deleted.
-/

namespace Fleta

variable {Acc Ev : Type}

open Script FormulatorCast World

/-- What `CreateSigma` and `CreateOmega` differ in. -/
structure MergeRule where
  fromType : UInt8
  toType : UInt8
  tagPolicy : Bytes
  policy : Bytes → Except Err MergePolicy
  notAllowed : Err

structure MergeTx where
  sender : Address
  formulators : List Address

namespace MergeRule

variable [Account Acc] [SignedAccount Acc] [FormulatorCast Acc] [PolicyCodecs]
  (rule : MergeRule) (p : Formulator)

def validateOne (policy : MergePolicy) (rewardPolicy : RewardPolicy)
    (entry : Address × PublicHash) : Script Acc Ev Unit := do
  let acc ← check (← account entry.1)
  match asFormulator acc with
  | none => fail .invalidAccountType
  | some frAcc =>
    if frAcc.formulatorType ≠ rule.fromType then fail .invalidAccountType
    else if (← env).targetHeight + frAcc.preHeight < frAcc.updatedHeight + policy.requiredBlocks then
      fail .insufficientFormulatorBlocks
    else
      check (frAcc.validate [entry.2])
      if ← p.isRewardBaseUpgrade then
        if frAcc.rewardCount * rewardPolicy.payRewardEveryBlocks + frAcc.preHeight <
            policy.requiredBlocks then
          fail .insufficientFormulatorRewardCount

def validate (signers : List PublicHash) (tx : MergeTx) : Script Acc Ev Unit := do
  if tx.formulators.isEmpty then fail .panicked
  else if some tx.sender ≠ tx.formulators.head? then fail .invalidFormulatorAddress
  else if tx.formulators.length ≠ signers.length then fail .invalidSignerCount
  else
    let policy ← check (rule.policy (← processData p.pid rule.tagPolicy))
    if policy.requiredCount = 0 then fail rule.notAllowed
    else if tx.formulators.length ≠ policy.requiredCount.toNat then fail .invalidFormulatorCount
    else
      let rewardPolicy ← p.getRewardPolicy
      each (tx.formulators.zip signers) (rule.validateOne p policy rewardPolicy)
      check (← p.vault.checkFeePayable tx.sender)

def mergeOne (first addr : Address) : Script Acc Ev Unit := do
  let acc ← check (← account addr)
  match asFormulator acc with
  | none => fail .panicked
  | some subAcc =>
    let balance ← p.vault.balance addr
    p.vault.addBalance first balance
    p.vault.removeBalance addr
    let _ ← updateAccount first
      (change fun frAcc => { frAcc with amount := frAcc.amount + subAcc.amount })
    check (← deleteAccount acc)

def promote (height : UInt32) (frAcc : FormulatorAccount) : FormulatorAccount :=
  { frAcc with
    formulatorType := rule.toType
    preHeight := 0
    updatedHeight := height
    rewardCount := 0 }

def execute (tx : MergeTx) : Script Acc Ev Unit :=
  p.vault.withFee tx.sender do
    let _ ← check (rule.policy (← processData p.pid rule.tagPolicy))
    match tx.formulators with
    | [] => fail .panicked
    | first :: rest =>
      let acc ← check (← account first)
      if (asFormulator acc).isNone then fail .panicked
      else
        each rest (mergeOne p first)
        let height := (← env).targetHeight
        let _ ← updateAccount first (change (rule.promote height))

def run (signers : List PublicHash) (tx : MergeTx) : Script Acc Ev Unit := do
  rule.validate p signers tx
  rule.execute p tx

end MergeRule

def createSigma [PolicyCodecs] : MergeRule where
  fromType := alphaFormulatorType
  toType := sigmaFormulatorType
  tagPolicy := Formulator.tagSigmaPolicy
  policy := PolicyCodecs.sigmaPolicy
  notAllowed := .sigmaCreationNotAllowed

def createOmega [PolicyCodecs] : MergeRule where
  fromType := sigmaFormulatorType
  toType := omegaFormulatorType
  tagPolicy := Formulator.tagOmegaPolicy
  policy := PolicyCodecs.omegaPolicy
  notAllowed := .omegaCreationNotAllowed

def World.Placed [Account Acc] (w : World Acc Ev) : Prop :=
  ∀ addr acc, w.standing addr = .present acc → Account.address acc = addr

theorem World.Placed.updateAccount [Account Acc] {w : World Acc Ev} (placed : w.Placed)
    {update : Acc → Acc} (same : ∀ acc, Account.address (update acc) = Account.address acc)
    (addr : Address) : (w.updateAccount addr update).Placed := by
  intro other acc present
  unfold World.updateAccount at present
  split at present
  · rename_i old before
    by_cases here : other = addr
    · subst here
      simp only [stand, Function.update_self, Standing.present.injEq] at present
      rw [← present, same]
      exact placed other old before
    · simp only [stand, Function.update_of_ne here] at present
      exact placed other acc present
  · exact placed other acc present

namespace World

variable [Account Acc] [SignedAccount Acc] [FormulatorCast Acc]

def formulated (w : World Acc Ev) (addr : Address) : Int :=
  match w.standing addr with
  | .present acc => ((asFormulator acc).map FormulatorAccount.amount).getD 0
  | _ => 0

noncomputable def holdings (v : Vault) (w : World Acc Ev) : Int :=
  ∑ addr : Address, (w.balance v addr + w.formulated addr) + w.collectedFee v

theorem formulated_of_present {w : World Acc Ev} {addr : Address} {fr : FormulatorAccount}
    (present : w.standing addr = .present (ofFormulator fr)) : w.formulated addr = fr.amount := by
  simp [formulated, present]

end World

section Merge

theorem World.balance_moved (v : Vault) (w : World Acc Ev) (first addr other : Address) :
    ((w.setBalance v first (w.balance v first + w.balance v addr)).setBalance v addr 0).balance v
        other =
      if other = addr then 0
      else if other = first then w.balance v first + w.balance v addr else w.balance v other := by
  have sum : 0 ≤ w.balance v first + w.balance v addr :=
    Int.add_nonneg (w.balance_nonneg _ _) (w.balance_nonneg _ _)
  rw [balance_setBalance v (le_refl 0), balance_setBalance v sum]

variable [Account Acc] [SignedAccount Acc] [FormulatorCast Acc]

structure MergeStep (p : Formulator) (first addr : Address) (w w' : World Acc Ev) : Prop where
  found : ∃ sub, w.standing addr = .present (ofFormulator sub) ∧
    w'.standing = Function.update
      (w.updateAccount first (change fun fr => { fr with amount := fr.amount + sub.amount })).standing
      addr .dropped
  balance : ∀ other, w'.balance p.vault other =
    if other = addr then 0
    else if other = first then w.balance p.vault first + w.balance p.vault addr
    else w.balance p.vault other
  processData : w'.processData = w.processData
  env : w'.env = w.env

variable {p : Formulator} {first addr : Address} {w w' : World Acc Ev}

namespace MergeStep

variable (step : MergeStep p first addr w w')

include step

theorem dropped : w'.standing addr = .dropped := by
  obtain ⟨sub, listed, standing⟩ := step.found
  rw [standing, Function.update_self]

variable {fr : FormulatorAccount}

theorem standing_first (other : addr ≠ first) (present : w.standing first = .present (ofFormulator fr)) :
    w'.standing first =
      .present (ofFormulator { fr with amount := fr.amount + w.formulated addr }) := by
  obtain ⟨sub, listed, standing⟩ := step.found
  rw [standing, Function.update_of_ne other.symm, World.updateAccount, present,
    World.formulated_of_present listed]
  simp [World.stand]

theorem standing_other {a : Address} (notFirst : a ≠ first)
    (notAddr : a ≠ addr) : w'.standing a = w.standing a := by
  obtain ⟨sub, listed, standing⟩ := step.found
  rw [standing, Function.update_of_ne notAddr, World.updateAccount]
  cases w.standing first <;> simp [World.stand, notFirst]

theorem stays_dropped {a : Address}
    (before : w.standing a = .dropped) : w'.standing a = .dropped := by
  obtain ⟨sub, listed, standing⟩ := step.found
  rw [standing]
  by_cases here : a = addr
  · rw [here, Function.update_self]
  · rw [Function.update_of_ne here, World.updateAccount]
    cases atFirst : w.standing first with
    | present acc =>
      have notFirst : a ≠ first := by
        intro same
        rw [same, atFirst] at before
        cases before
      simp [stand, notFirst, before]
    | absent | dropped | deleted => exact before

theorem placed (before : w.Placed) : w'.Placed := by
  obtain ⟨sub, listed, standing⟩ := step.found
  intro other acc present
  rw [standing] at present
  by_cases here : other = addr
  · rw [here, Function.update_self] at present
    cases present
  · rw [Function.update_of_ne here] at present
    refine before.updateAccount ?_ first other acc present
    exact address_change fun _ => rfl

theorem holdings (other : addr ≠ first) (present : w.standing first = .present (ofFormulator fr)) :
    w'.holdings p.vault = w.holdings p.vault := by
  have fee : w'.collectedFee p.vault = w.collectedFee p.vault := by
    rw [collectedFee, collectedFee, step.processData]
  have atAddr : w'.formulated addr = 0 := by simp [formulated, step.dropped]
  have atFirst : w'.formulated first = w.formulated first + w.formulated addr := by
    rw [formulated_of_present (step.standing_first other present), formulated_of_present present]
  have each : ∀ a, w'.balance p.vault a + w'.formulated a = w.balance p.vault a + w.formulated a +
        (if a = first then w.balance p.vault addr + w.formulated addr else 0) +
        (if a = addr then -(w.balance p.vault addr + w.formulated addr) else 0) := by
    intro a
    rw [step.balance]
    by_cases here : a = addr
    · rw [here, atAddr, if_pos rfl, if_neg other, if_pos rfl]
      omega
    · by_cases merged : a = first
      · rw [merged, atFirst, if_neg other.symm, if_pos rfl, if_pos rfl, if_neg other.symm]
        omega
      · have same : w'.formulated a = w.formulated a := by
          rw [formulated, formulated, step.standing_other merged here]
        rw [if_neg here, if_neg merged, if_neg merged, if_neg here, same]
        omega
  simp only [World.holdings, each, Finset.sum_add_distrib, Finset.sum_ite_eq', Finset.mem_univ,
    if_true, fee]
  omega

end MergeStep

theorem MergeStep.of_deleted {sub : FormulatorAccount} (paid : World Acc Ev)
    (present : w.standing addr = .present (ofFormulator sub)) (placed : w.Placed)
    (standing : paid.standing = w.standing)
    (balance : ∀ other, paid.balance p.vault other =
      if other = addr then 0
      else if other = first then w.balance p.vault first + w.balance p.vault addr
      else w.balance p.vault other)
    (processData : paid.processData = w.processData) (env : paid.env = w.env) :
    MergeStep p first addr w
      (World.deleteAccount (ofFormulator sub) (paid.updateAccount first
        (change fun fr => { fr with amount := fr.amount + sub.amount }))).2 := by
  have address : Account.address (ofFormulator sub : Acc) = addr := placed addr _ present
  have stays : ∀ update, ∃ acc', (paid.updateAccount first update).standing
      (Account.address (ofFormulator sub : Acc)) = .present acc' :=
    fun update => World.updateAccount_present (by rw [address, standing]; exact present)
  obtain ⟨acc', found⟩ := stays (change fun fr => { fr with amount := fr.amount + sub.amount })
  rw [World.deleteAccount_present found, address]
  refine ⟨⟨sub, present, ?_⟩, fun other => ?_, ?_, ?_⟩
  · exact congrArg (fun standing => Function.update standing addr Standing.dropped)
      (World.updateAccount_standing standing)
  · rw [← balance]
    simp only [World.balance, World.stand, World.updateAccount_accountData]
  · simpa only [World.stand, World.updateAccount_processData] using processData
  · simpa only [World.stand, World.updateAccount_env] using env

variable [Event Ev] [Base58] {join : World Acc Ev → World Acc Ev → World Acc Ev}

theorem MergeRule.mergeOne_does (first addr : Address) :
    (MergeRule.mergeOne p first addr : Script Acc Ev Unit).Does join
      fun w w' => w.Placed → MergeStep p first addr w w' := by
  intro w w' next done
  simp only [MergeRule.mergeOne, bind_apply, exec_account] at done
  cases found : w.account addr with
  | error err =>
    rw [found] at done
    cases done
  | ok acc =>
    rw [found] at done
    have present := account_ok found
    simp only [Script.check, pure_apply] at done
    cases cast : asFormulator acc with
    | none =>
      rw [cast] at done
      cases done
    | some sub =>
      rw [cast] at done
      have record := (asFormulator_eq_some acc sub).mp cast
      simp only [bind_apply, Vault.exec_balance,
        Vault.exec_addBalance p.vault _ _ _ (w.balance_nonneg p.vault addr),
        Vault.removeBalance, exec_setAccountData, exec_updateAccount, exec_deleteAccount] at done
      subst record
      have step := fun placed => MergeStep.of_deleted
        ((w.setBalance p.vault first (w.balance p.vault first + w.balance p.vault addr)).setBalance
          p.vault addr 0)
        present placed rfl (w.balance_moved p.vault first addr) rfl rfl
      generalize mid_eq : World.deleteAccount (ofFormulator sub : Acc) _ = deleted at done
      change deleteAccount _ (updateAccount first _ (setBalance p.vault
        (w.setBalance p.vault first _) addr 0)) = _ at mid_eq
      rw [mid_eq] at step
      obtain ⟨result, mid⟩ := deleted
      cases result with
      | error err => cases done
      | ok => exact ⟨(), mid, step, done⟩

abbrev Merging (p : Formulator) (first : Address) :
    List Address → World Acc Ev → World Acc Ev → Prop :=
  World.Chain fun addr w w' => w.Placed → MergeStep p first addr w w'

namespace Merging

variable {rest : List Address}

omit [Event Ev] [Base58]

variable (merging : Merging p first rest w w')

include merging

variable (placed : w.Placed)

include placed

theorem stays_dropped {a : Address}
    (before : w.standing a = .dropped) : w'.standing a = .dropped := by
  induction merging with
  | nil => exact before
  | cons step rest ih => exact ih ((step placed).placed placed) ((step placed).stays_dropped before)

theorem dropped : ∀ addr ∈ rest, w'.standing addr = .dropped := by
  induction merging with
  | nil => simp
  | cons step rest ih =>
    have next := (step placed).placed placed
    rw [List.forall_mem_cons]
    exact ⟨stays_dropped rest next (step placed).dropped, ih next⟩

theorem processData : w'.processData = w.processData := by
  induction merging with
  | nil => rfl
  | cons step rest ih =>
    exact (ih ((step placed).placed placed)).trans (step placed).processData

theorem holdings (once : first ∉ rest)
    {fr : FormulatorAccount} (present : w.standing first = .present (ofFormulator fr)) :
    w'.holdings p.vault = w.holdings p.vault ∧
      ∃ fr', w'.standing first = .present (ofFormulator fr') := by
  induction merging generalizing fr with
  | nil => exact ⟨rfl, fr, present⟩
  | cons step rest ih =>
    rw [List.mem_cons, not_or] at once
    have other := Ne.symm once.1
    have after := ih ((step placed).placed placed) once.2
      ((step placed).standing_first other present)
    exact ⟨after.1.trans ((step placed).holdings other present), after.2⟩

theorem balance_eq_zero (once : first ∉ rest) :
    w'.balance p.vault first = 0 ↔
      w.balance p.vault first = 0 ∧ ∀ addr ∈ rest, w.balance p.vault addr = 0 := by
  induction merging with
  | nil => simp
  | @cons addr rest w mid w' step chain ih =>
    rw [List.mem_cons, not_or] at once
    have mine := w.balance_nonneg p.vault first
    have theirs := w.balance_nonneg p.vault addr
    have others : (∀ other ∈ rest, mid.balance p.vault other = 0) ↔
        ∀ other ∈ rest, other = addr ∨ w.balance p.vault other = 0 := by
      apply forall₂_congr
      intro other listed
      have notFirst : other ≠ first := fun same => once.2 (same ▸ listed)
      rw [(step placed).balance]
      by_cases here : other = addr <;> simp [here, notFirst]
    rw [ih ((step placed).placed placed) once.2, (step placed).balance, if_neg once.1, if_pos rfl,
      others, List.forall_mem_cons]
    constructor
    · rintro ⟨sum, rest⟩
      refine ⟨by omega, by omega, fun other listed => ?_⟩
      rcases rest other listed with rfl | zero
      · omega
      · exact zero
    · rintro ⟨zero, zero', rest⟩
      exact ⟨by omega, fun other listed => .inr (rest other listed)⟩

end Merging

variable [PolicyCodecs] {rule : MergeRule} {sender : Address} {rest : List Address}

omit [PolicyCodecs] in
theorem MergeRule.validateOne_asks (policy : MergePolicy) (rewardPolicy : RewardPolicy)
    (entry : Address × PublicHash) :
    (rule.validateOne p policy rewardPolicy entry : Script Acc Ev Unit).Asks join
      fun _ => True := by
  apply (Asks.account entry.1).later
  intro found
  apply (Asks.check found).later
  intro acc
  split
  · exact .fail _
  split
  · exact .fail _
  apply Asks.env.later
  intro env
  split
  · exact .fail _
  apply (Asks.check _).later
  intro _
  have upgrade : (p.isRewardBaseUpgrade : Script Acc Ev Bool).Asks join fun _ => True :=
    (Asks.processData _ _).later fun _ => .pure _
  apply upgrade.later
  intro upgraded
  split
  · split
    · exact .fail _
    · exact .pure _
  · exact .pure _

theorem MergeRule.validate_asks (signers : List PublicHash) :
    (rule.validate p signers ⟨sender, first :: rest⟩ : Script Acc Ev Unit).Asks join
      fun _ => sender = first := by
  unfold MergeRule.validate
  rw [if_neg (by simp)]
  split
  · exact .fail _
  rename_i sent
  have same : sender = first := by simpa using sent
  split
  · exact .fail _
  have reads : (do
      let policy ← check (rule.policy (← processData p.pid rule.tagPolicy))
      if policy.requiredCount = 0 then fail rule.notAllowed
      else if (first :: rest).length ≠ policy.requiredCount.toNat then fail .invalidFormulatorCount
      else
        let rewardPolicy ← p.getRewardPolicy
        each ((first :: rest).zip signers) (rule.validateOne p policy rewardPolicy)
        check (← p.vault.checkFeePayable sender) : Script Acc Ev Unit).Asks join fun _ => True := by
    apply (Asks.processData _ _).later
    intro bs
    apply (Asks.check _).later
    intro policy
    split
    · exact .fail _
    split
    · exact .fail _
    have rewardPolicy : (p.getRewardPolicy : Script Acc Ev RewardPolicy).Asks join fun _ => True :=
      (Asks.processData _ _).later fun _ => .check _
    apply rewardPolicy.later
    intro rewardPolicy
    apply (Asks.each (rule.validateOne_asks policy rewardPolicy)).later
    intro _
    exact (p.vault.checkFeePayableWith_asks _ _ _).later .check
  intro w w' next done
  exact ⟨same, (reads w w' next done).2⟩

omit [PolicyCodecs] in
theorem MergeRule.execute_ok
    (done : (rule.execute p ⟨sender, first :: rest⟩).toProg.exec commit w = (.ok (), w')) :
    w.defaultFee p.vault ≤ w.balance p.vault sender ∧
      ∃ fr mid, w.standing first = .present (ofFormulator fr) ∧
        Merging p first rest (w.charged p.vault sender).snapshot mid ∧
        w' = (w.charged p.vault sender).commit
          (mid.updateAccount first (change (rule.promote mid.env.targetHeight))) := by
  simp only [MergeRule.execute, toProg, Vault.exec_withFee] at done
  split at done
  · cases done
  obtain ⟨inner, ran, last⟩ := Script.within_ok done
  obtain ⟨_, _, ran⟩ := Asks.processData _ _ _ _ _ ran
  obtain ⟨_, _, ran⟩ := Asks.check _ _ _ _ ran
  refine ⟨by omega, ?_⟩
  simp only [bind_apply, exec_account] at ran
  cases found : (w.charged p.vault sender).snapshot.account first with
  | error err =>
    rw [found] at ran
    cases ran
  | ok acc =>
    rw [found] at ran
    simp only [Script.check, pure_apply] at ran
    split at ran
    · cases ran
    rename_i some
    obtain ⟨fr, cast⟩ := Option.ne_none_iff_exists'.mp (by simpa using some)
    obtain ⟨_, mid, merging, ran⟩ := Does.each (MergeRule.mergeOne_does first) _ _ _ ran
    refine ⟨fr, mid, ?_, merging, ?_⟩
    · rw [← (asFormulator_eq_some acc fr).mp cast]
      exact account_ok found
    · rw [(Prod.mk.inj ran).2]
      exact (Prod.mk.inj last).2.symm

end Merge

section Commit

variable [Account Acc] [SignedAccount Acc] [FormulatorCast Acc] {v : Vault}
  {w inner : World Acc Ev} {sender : Address}

theorem World.holdings_eq (w : World Acc Ev) :
    w.holdings v = w.funds v + ∑ addr : Address, w.formulated addr := by
  rw [holdings, funds, Finset.sum_add_distrib]
  omega

theorem World.holdings_charged (enough : w.defaultFee v ≤ w.balance v sender) :
    (w.charged v sender).holdings v = w.holdings v := by
  have held := w.collectedFee_nonneg v
  have fee := w.defaultFee_nonneg v
  have paid : w.Moved v Set.univ _ _ := World.Moved.setBalance (Set.mem_univ sender)
    (show 0 ≤ w.balance v sender - w.defaultFee v by omega)
  have collected : World.Moved v Set.univ _ _ (w.charged v sender) :=
    World.Moved.setCollectedFee (show 0 ≤ w.collectedFee v + w.defaultFee v by omega)
  have funds := (paid.trans collected).funds
  rw [collectedFee_setBalance] at funds
  rw [holdings_eq, holdings_eq]
  have same : ∀ addr, (w.charged v sender).formulated addr = w.formulated addr := fun _ => rfl
  simp only [same]
  omega

section

omit [Account Acc] [SignedAccount Acc] [FormulatorCast Acc]

/-- A balance that the fee has used up stays empty when the snapshot is merged. -/
theorem World.balance_commit_charged (addr : Address) :
    ((w.snapshot.charged v sender).commit inner).balance v addr =
      if addr = sender ∧ w.balance v sender = w.defaultFee v then 0 else inner.balance v addr := by
  have marked : (w.snapshot.charged v sender).emptied addr v.pid Vault.tagBalance = true ↔
      addr = sender ∧ w.balance v sender = w.defaultFee v := by
    by_cases here : addr = sender
    · have used : w.balance v sender - w.defaultFee v = 0 ↔
          w.balance v sender = w.defaultFee v := sub_eq_zero
      simp only [here, true_and, ← used, ← Amount.toBytes_isEmpty]
      simp only [charged, setCollectedFee, setProcessData, setBalance,
        setAccountData, and_self, if_true]
      rfl
    · simp [charged, setCollectedFee, setProcessData, setBalance, setAccountData, here, snapshot]
  rw [balance, commit]
  dsimp only
  by_cases used : addr = sender ∧ w.balance v sender = w.defaultFee v
  · rw [if_pos (marked.mpr used), if_pos used]
    rfl
  · rw [if_neg (marked.not.mpr used), if_neg used]
    rfl

theorem World.collectedFee_commit_charged
    (same : inner.collectedFee v = (w.snapshot.charged v sender).collectedFee v) :
    ((w.snapshot.charged v sender).commit inner).collectedFee v = inner.collectedFee v := by
  rw [collectedFee, commit]
  dsimp only
  split
  · rename_i marked
    have empty : w.snapshot.collectedFee v + w.snapshot.defaultFee v = 0 := by
      apply Amount.toBytes_isEmpty.mp
      simpa [charged, setCollectedFee, setProcessData] using marked
    have stored : (w.snapshot.charged v sender).collectedFee v =
        w.snapshot.collectedFee v + w.snapshot.defaultFee v :=
      collectedFee_setCollectedFee v empty.ge
    rw [same, stored, empty, Amount.ofBytes_nil]
  · rfl

end

theorem World.holdings_commit_charged
    (same : inner.collectedFee v = (w.snapshot.charged v sender).collectedFee v) :
    ((w.snapshot.charged v sender).commit inner).holdings v =
      inner.holdings v -
        if w.balance v sender = w.defaultFee v then inner.balance v sender else 0 := by
  have standing : ∀ addr, ((w.snapshot.charged v sender).commit inner).formulated addr =
      inner.formulated addr := fun _ => rfl
  have balance : ∀ addr, ((w.snapshot.charged v sender).commit inner).balance v addr =
      inner.balance v addr + if addr = sender then
        -(if w.balance v sender = w.defaultFee v then inner.balance v sender else 0) else 0 := by
    intro addr
    rw [balance_commit_charged]
    by_cases here : addr = sender
    · rw [here]
      by_cases used : w.balance v sender = w.defaultFee v <;> simp [used]
    · simp [here]
  rw [holdings_eq, holdings_eq, funds, funds, collectedFee_commit_charged same]
  simp only [standing, balance, Finset.sum_add_distrib, Finset.sum_ite_eq', Finset.mem_univ, if_true]
  omega

end Commit

structure Merged [Account Acc] [SignedAccount Acc] [FormulatorCast Acc] (v : Vault)
    (toType : UInt8) (first : Address) (rest : List Address) (w w' : World Acc Ev) : Prop where
  conserved : w'.holdings v = w.holdings v
  kept : ∃ fr, w'.standing first = .present (ofFormulator fr) ∧ fr.formulatorType = toType
  deleted : ∀ addr ∈ rest, addr ≠ first → w'.account addr = .error .deletedAccount

section Claim

variable [Account Acc] [SignedAccount Acc] [FormulatorCast Acc] [Event Ev] [Base58] [PolicyCodecs]

section

omit [Event Ev] [Base58] [PolicyCodecs]

variable (rule : MergeRule) (height : UInt32)

theorem World.formulated_promote (w : World Acc Ev) (first addr : Address) :
    (w.updateAccount first (change (rule.promote height))).formulated addr = w.formulated addr := by
  unfold updateAccount
  cases present : w.standing first with
  | present acc =>
    by_cases here : addr = first
    · subst here
      simp only [formulated, stand, Function.update_self, present]
      cases cast : asFormulator acc with
      | none => simp [change, cast]
      | some fr => simp [change, cast, MergeRule.promote]
    · simp [formulated, stand, here]
  | absent | dropped | deleted => rfl

theorem World.holdings_promote (v : Vault) (w : World Acc Ev) (first : Address) :
    (w.updateAccount first (change (rule.promote height))).holdings v = w.holdings v := by
  simp only [holdings, formulated_promote, balance, collectedFee,
    updateAccount_accountData, updateAccount_processData]

/-- What the other formulators held stays with the first one, unless the fee had used up its
balance: then the balances that were merged into it are lost. -/
theorem Merging.conserved_iff {p : Formulator} {first : Address} {rest : List Address}
    {w mid : World Acc Ev} {fr : FormulatorAccount}
    (enough : w.defaultFee p.vault ≤ w.balance p.vault first)
    (merging : Merging p first rest (w.snapshot.charged p.vault first).snapshot mid)
    (placed : w.Placed) (once : first ∉ rest)
    (present : w.standing first = .present (ofFormulator fr)) :
    ((w.snapshot.charged p.vault first).commit
      (mid.updateAccount first (change (rule.promote mid.env.targetHeight)))).holdings p.vault =
        w.holdings p.vault ↔
      w.balance p.vault first ≠ w.defaultFee p.vault ∨ ∀ addr ∈ rest, w.balance p.vault addr = 0 := by
  have data := merging.processData placed
  have kept := (merging.holdings placed once present).1
  have charged : (w.snapshot.charged p.vault first).holdings p.vault = w.snapshot.holdings p.vault :=
    holdings_charged enough
  have fee : (mid.updateAccount first (change (rule.promote mid.env.targetHeight))).collectedFee
      p.vault = (w.snapshot.charged p.vault first).collectedFee p.vault := by
    rw [collectedFee, updateAccount_processData, data]
    rfl
  have balance : (mid.updateAccount first (change (rule.promote mid.env.targetHeight))).balance
      p.vault first = mid.balance p.vault first := by
    rw [balance, updateAccount_accountData]
    rfl
  rw [holdings_commit_charged fee, holdings_promote, kept, balance]
  change (w.snapshot.charged p.vault first).holdings p.vault - _ = w.holdings p.vault ↔ _
  rw [charged]
  change w.holdings p.vault - _ = w.holdings p.vault ↔ _
  by_cases used : w.balance p.vault first = w.defaultFee p.vault
  · have before : ∀ addr, (w.snapshot.charged p.vault first).snapshot.balance p.vault addr =
        if addr = first then 0 else w.balance p.vault addr := by
      intro addr
      have left : w.balance p.vault first - w.defaultFee p.vault = 0 := by omega
      change (setBalance p.vault w.snapshot first
        (w.balance p.vault first - w.defaultFee p.vault)).balance p.vault addr = _
      rw [left, balance_setBalance p.vault (le_refl 0)]
      rfl
    have others : (∀ addr ∈ rest, (w.snapshot.charged p.vault first).snapshot.balance p.vault addr =
        0) ↔ ∀ addr ∈ rest, w.balance p.vault addr = 0 := by
      apply forall₂_congr
      intro addr listed
      have other : addr ≠ first := fun same => once (same ▸ listed)
      rw [before, if_neg other]
    have nothing := merging.balance_eq_zero placed once
    rw [before, if_pos rfl, others] at nothing
    rw [if_pos used]
    constructor
    · intro same
      exact .inr (nothing.mp (by omega)).2
    · rintro (more | none)
      · exact absurd used more
      · have zero := nothing.mpr ⟨rfl, none⟩
        omega
  · rw [if_neg used]
    simp [used]

end

/-- A merge that passes keeps its promises exactly when the first formulator is listed once,
and either it has more than the fee or the other ones have no balance. -/
theorem MergeRule.run_merged_iff (rule : MergeRule) (p : Formulator) (signers : List PublicHash)
    (sender first : Address) (rest : List Address) (w w' : World Acc Ev) (placed : w.Placed)
    (passed : (rule.run p signers ⟨sender, first :: rest⟩).toProg.exec World.commit w.snapshot =
      (.ok (), w')) :
    Merged p.vault rule.toType first rest w w' ↔
      first ∉ rest ∧ (w.balance p.vault first ≠ w.defaultFee p.vault ∨
        ∀ addr ∈ rest, w.balance p.vault addr = 0) := by
  obtain ⟨rfl, _, executed⟩ := rule.validate_asks signers _ _ _ passed
  obtain ⟨enough, fr, mid, present, merging, rfl⟩ := MergeRule.execute_ok executed
  have dropped := merging.dropped placed
  by_cases once : sender ∈ rest
  · have gone : mid.standing sender = .dropped := dropped sender once
    refine ⟨fun merged => ?_, fun condition => absurd once condition.1⟩
    obtain ⟨fr', kept, _⟩ := merged.kept
    have still : (mid.updateAccount sender
        (change (rule.promote mid.env.targetHeight))).standing sender = .dropped := by
      rw [World.updateAccount, gone]
      exact gone
    have both : Standing.dropped = Standing.present (ofFormulator fr' : Acc) := still.symm.trans kept
    cases both
  · have conserved := Merging.conserved_iff rule enough merging placed once present
    refine ⟨fun merged => ⟨once, conserved.mp merged.conserved⟩, fun condition => ?_⟩
    obtain ⟨fr', standing⟩ := (merging.holdings placed once present).2
    refine ⟨conserved.mpr condition.2, ⟨rule.promote mid.env.targetHeight fr', ?_, rfl⟩,
      fun addr listed other => ?_⟩
    · change (mid.updateAccount sender _).standing sender = _
      rw [World.updateAccount, standing]
      simp [World.stand]
    · have same : (mid.updateAccount sender
          (change (rule.promote mid.env.targetHeight))).standing addr = .dropped := by
        rw [World.updateAccount, standing]
        simp [World.stand, other, dropped addr listed]
      simp [World.account, World.commit, same]

end Claim

namespace Instances

def someFormulator (addr : Address) : FormulatorAccount :=
  ⟨addr, addr.bytes, alphaFormulatorType, [9], [9], Amount.coin * 10, false, 0, 0, 0, 0, ⟨0, 0, 1⟩⟩

def otherAddress : Address := Address.new 0 2 0

def twoFormulators : World ChainAccount PlainEvent :=
  setBalance someProcess.vault (setBalance someProcess.vault ⟨⟨1, [], 1, 1, [], 0⟩, Function.update
          (Function.update (fun _ => .absent) someAddress
            (.present (.formulator (someFormulator someAddress))))
          otherAddress (.present (.formulator (someFormulator otherAddress))),
        fun _ => none, fun _ _ _ => [], fun _ _ => [], [], fun _ _ _ => false, fun _ _ => false⟩
      someAddress Amount.coin)
    otherAddress (Amount.coin * 2)

theorem twoFormulators_placed : twoFormulators.Placed := by
  intro addr acc present
  by_cases second : addr = otherAddress
  · subst second
    simp only [twoFormulators, World.setBalance, World.setAccountData, Function.update_self,
      Standing.present.injEq] at present
    rw [← present]
    rfl
  · by_cases first : addr = someAddress
    · subst first
      simp only [twoFormulators, World.setBalance, World.setAccountData,
        Function.update_of_ne second, Function.update_self, Standing.present.injEq] at present
      rw [← present]
      rfl
    · simp [twoFormulators, World.setBalance, World.setAccountData, first, second] at present

/-- Two alpha formulators become one sigma formulator. -/
theorem two_formulators_merged : ∃ w' : World ChainAccount PlainEvent,
    (createSigma.run someProcess [[9], [9]] ⟨someAddress, [someAddress, otherAddress]⟩).toProg.exec
        commit twoFormulators.snapshot = (.ok (), w') ∧
      Merged someProcess.vault sigmaFormulatorType someAddress [otherAddress] twoFormulators w' := by
  refine exists_passed (by decide +kernel) fun w' ran => ?_
  exact (MergeRule.run_merged_iff createSigma someProcess [[9], [9]] someAddress someAddress
    [otherAddress] twoFormulators w' twoFormulators_placed ran).mpr
      ⟨by decide +kernel, .inl (by decide +kernel)⟩

/-- A formulator that is merged with itself is deleted, with its balance. -/
theorem merged_with_itself : ∃ w' : World ChainAccount PlainEvent,
    (createSigma.run someProcess [[9], [9]] ⟨someAddress, [someAddress, someAddress]⟩).toProg.exec
        commit twoFormulators.snapshot = (.ok (), w') ∧
      w'.account someAddress = .error .deletedAccount ∧ w'.balance someProcess.vault someAddress = 0 ∧
      ¬Merged someProcess.vault sigmaFormulatorType someAddress [someAddress] twoFormulators w' := by
  have passed :
      let outcome := (createSigma.run someProcess [[9], [9]]
        ⟨someAddress, [someAddress, someAddress]⟩).toProg.exec commit twoFormulators.snapshot
      outcome.1 = .ok () ∧ outcome.2.account someAddress = .error .deletedAccount ∧
        outcome.2.balance someProcess.vault someAddress = 0 := by decide +kernel
  refine exists_passed passed.1 fun w' ran => ?_
  simp only [ran, true_and] at passed
  refine ⟨passed.1, passed.2, fun merged => ?_⟩
  obtain ⟨fr, kept, _⟩ := merged.kept
  have gone := passed.1
  simp [World.account, kept] at gone

end Instances

end Fleta
