import Fleta.Gateway
import Fleta.PayoutInterval
import Fleta.StakingInstances

/-!
# Runs of blocks and their payouts

Blocks of transactions that write no height of a payout, each followed by the hook. The
policy of a hyper formulator comes from the transaction that creates it or from the one that
updates its policy.
-/

namespace Fleta

open Script World List

variable {Acc Ev : Type}

def formulatorName : Bytes := ascii "fleta.formulator"

class HyperCreation where
  hyperCreationAmount : Bytes → Except Err Int

structure CreateHyper where
  sender : Address
  name : Bytes
  keyHash : PublicHash
  genHash : PublicHash
  policy : Option ValidatorPolicy

namespace CreateHyper

variable [Account Acc] [SignedAccount Acc]

def checkName (tx : CreateHyper) : Script Acc Ev Unit := do
  match ← hasAccountName tx.name with
  | .error err => if err ≠ .deletedAccount then fail err else return ()
  | .ok true => fail .existAccountName
  | .ok false => return ()

def validate (p : Formulator) (signers : List PublicHash) (tx : CreateHyper) :
    Script Acc Ev ValidatorPolicy := do
  let admin ← p.vault.adminAddress formulatorName
  if tx.sender ≠ admin then fail .unauthorizedTransaction
  else
    match tx.policy with
    | none => fail .invalidValidatorPolicy
    | some policy =>
      if policy.commissionRatio1000 > 1000 then fail .invalidValidatorPolicy
      else
        tx.checkName
        let fromAcc ← check (← account tx.sender)
        check (SignedAccount.validate fromAcc signers)
        return policy

variable [FormulatorCast Acc] [HyperCreation]

def execute (p : Formulator) (index : UInt16) (tx : CreateHyper) (policy : ValidatorPolicy) :
    Script Acc Ev Unit := do
  let bs ← processData p.pid Formulator.tagHyperPolicy
  let amount ← check (HyperCreation.hyperCreationAmount bs)
  p.vault.subBalance tx.sender amount
  let height := (← env).targetHeight
  let addr ← p.vault.newAddress index
  check (← createAccountIgnoreDelete (FormulatorCast.ofFormulator
    ⟨addr, tx.name, hyperFormulatorType, tx.keyHash, tx.genHash, amount, false, 0, height, 0, 0,
      policy⟩))

def run (p : Formulator) (signers : List PublicHash) (index : UInt16) (tx : CreateHyper) :
    Script Acc Ev Unit := do
  let policy ← tx.validate p signers
  tx.execute p index policy

end CreateHyper

structure UpdateValidatorPolicy where
  sender : Address
  policy : Option ValidatorPolicy

namespace UpdateValidatorPolicy

variable [Account Acc] [SignedAccount Acc] [FormulatorCast Acc]

def validate (signers : List PublicHash) (tx : UpdateValidatorPolicy) :
    Script Acc Ev ValidatorPolicy := do
  match tx.policy with
  | none => fail .invalidValidatorPolicy
  | some policy =>
    if policy.commissionRatio1000 ≥ 1000 then fail .invalidValidatorPolicy
    else if policy.payOutInterval ≤ 0 then fail .invalidValidatorPolicy
    else if policy.payOutInterval > 30 then fail .invalidValidatorPolicy
    else
      let acc ← check (← account tx.sender)
      match FormulatorCast.asFormulator acc with
      | none => fail .invalidAccountType
      | some fr =>
        if fr.formulatorType ≠ hyperFormulatorType then fail .notHyperFormulator
        else
          check (fr.validate signers)
          return policy

def run (signers : List PublicHash) (tx : UpdateValidatorPolicy) : Script Acc Ev Unit := do
  let policy ← tx.validate signers
  let _ ← updateAccount tx.sender (FormulatorCast.change fun fr => { fr with policy := policy })

end UpdateValidatorPolicy

section Orderly

variable [Account Acc] [SignedAccount Acc] [FormulatorCast Acc] [Event Ev] [Base58]
  {join : World Acc Ev → World Acc Ev → World Acc Ev} (p : Formulator)

omit [SignedAccount Acc] [FormulatorCast Acc] [Event Ev] in
theorem Formulator.Orderly.insertAccount (tolerated : Err → Bool) (acc : Acc) (w : World Acc Ev) :
    p.Orderly w (w.insertAccount tolerated acc).2 := by
  unfold World.insertAccount
  dsimp only
  split
  · exact Std.Refl.refl w
  · split
    · exact Std.Refl.refl w
    · split
      · exact Std.Refl.refl w
      · split
        · exact Std.Refl.refl w
        · split
          · exact Std.Refl.refl w
          · refine ⟨rfl, ?_, fun _ unmarked => ⟨unmarked, rfl⟩⟩
            intro placed addr found present
            by_cases here : addr = Account.address acc
            · subst here
              simp only [stand, Function.update_self] at present
              split at present
              · cases present
              · cases present
                rfl
            · simp only [stand, Function.update_of_ne here] at present
              exact placed addr found present

omit [SignedAccount Acc] [FormulatorCast Acc] in
theorem CreateHyper.checkName_keeps {rel : World Acc Ev → World Acc Ev → Prop} [Std.Refl rel]
    (tx : CreateHyper) : (tx.checkName : Script Acc Ev Unit).Keeps join rel := by
  apply Keeps.of_reads
  intro w
  apply Ends.bind
  apply Ends.of_run (fun _ => rfl)
  split
  · split
    · exact Ends.fail _
    · exact Ends.pure rfl
  · exact .fail _
  · exact .pure rfl

theorem CreateHyper.run_orderly [HyperCreation] (signers : List PublicHash) (index : UInt16)
    (tx : CreateHyper) : (tx.run p signers index : Script Acc Ev Unit).Keeps join p.Orderly := by
  have validates : (tx.validate p signers : Script Acc Ev _).Keeps join p.Orderly := by
    apply Keeps.bind
    · apply (Keeps.processData _ _).bind
      intro bs
      split
      · exact .fail _
      · exact .pure _
    · intro admin
      split
      · exact .fail _
      · split
        · exact .fail _
        · split
          · exact .fail _
          · apply tx.checkName_keeps.bind
            intro _
            apply (Keeps.account _).bind
            intro found
            apply (Keeps.check found).bind
            intro fromAcc
            exact (Keeps.check _).map
  apply validates.bind
  intro policy
  apply (Keeps.processData _ _).bind
  intro bs
  apply (Keeps.check _).bind
  intro amount
  have pays : (p.vault.subBalance tx.sender amount : Script Acc Ev Unit).Keeps join p.Orderly :=
    Vault.subBalance_keeps (fun w am => p.orderly_admitsHook.balance w _ am) amount
  apply pays.bind
  intro _
  apply Keeps.env.bind
  intro env
  apply (Keeps.env.map).bind
  intro addr
  apply Keeps.bind
  · exact Keeps.createAccountIgnoreDelete fun w => Formulator.Orderly.insertAccount p _ _ w
  · exact fun created => Keeps.check created

end Orderly

structure HookBlock (Acc Ev : Type) where
  env : Env
  generator : Address
  orders : MapOrders
  transactions : List (Script Acc Ev Unit)

/-- A payout that is due by the wrapped sum is an interval after the last one, unless the sum
has wrapped around. -/
theorem Formulator.reached_iff {height last every interval : UInt32}
    (reached : height ≥ last + every * interval) :
    last.toNat + every.toNat * interval.toNat ≤ height.toNat ↔
      last.toNat + every.toNat * interval.toNat < 2 ^ 32 := by
  have wrapped := UInt32.le_iff_toNat_le.mp reached
  rw [UInt32.toNat_add, UInt32.toNat_mul] at wrapped
  have fits := height.toNat_lt
  omega

section Runs

variable [Account Acc] [SignedAccount Acc] [FormulatorCast Acc] [Event Ev] [FormulatorEvents Ev]
  [Base58] [PairsCodec] [PolicyCodecs]

def World.transactAll (txs : List (Script Acc Ev Unit)) (w : World Acc Ev) :
    Option (World Acc Ev) :=
  match txs with
  | [] => some w
  | tx :: txs => (w.transact tx).bind (transactAll txs)

namespace Formulator

variable (p : Formulator)

structure Unchanged (addr : Address) (every interval : UInt32) (w : World Acc Ev) : Prop where
  reward : ∀ policy, PolicyCodecs.rewardPolicy (w.processData p.pid tagRewardPolicy) = .ok policy →
    policy.payRewardEveryBlocks = every
  validator : ∀ own policy, policyAt w addr = some (own, policy) → policy.payOutInterval = interval

/-- A run of blocks under unchanged policies, with the heights of the blocks that paid out the
formulator. A payout writes the height of its block. -/
inductive PayoutRun (addr : Address) (every interval : UInt32) :
    World Acc Ev → List UInt32 → World Acc Ev → Prop
  | start {w : World Acc Ev} (placed : w.Placed) : PayoutRun addr every interval w [] w
  | block {w w' mid w'' : World Acc Ev} {heights : List UInt32}
      (run : PayoutRun addr every interval w heights w') (block : HookBlock Acc Ev)
      (orderly : ∀ tx ∈ block.transactions, tx.Keeps commit p.Orderly)
      (executed : (w'.nextBlock block.env).transactAll block.transactions = some mid)
      (unchanged : p.Unchanged addr every interval mid)
      (hooked : (p.afterExecuteTransactions block.orders block.generator).toProg.exec commit
        mid = (.ok (), w'')) :
      PayoutRun addr every interval w
        (heights ++ if p.paidBytes w'' addr = p.paidBytes mid addr then []
          else [block.env.targetHeight]) w''

variable {w w' : World Acc Ev}

omit [SignedAccount Acc] [FormulatorCast Acc] [FormulatorEvents Ev] [PairsCodec] [PolicyCodecs] in
theorem transactAll_orderly {txs : List (Script Acc Ev Unit)}
    (orderly : ∀ tx ∈ txs, tx.Keeps commit p.Orderly)
    (executed : w.transactAll txs = some w') : p.Orderly w w' := by
  induction txs generalizing w with
  | nil =>
    obtain rfl : w = w' := Option.some.inj executed
    exact Std.Refl.refl w
  | cons tx txs ih =>
    obtain ⟨mid, transacted, rest⟩ := Option.bind_eq_some_iff.mp executed
    obtain ⟨inner, ran, rfl⟩ := transact_eq_some.mp transacted
    obtain ⟨_, last, _, kept, ended⟩ := (orderly tx (by simp) w.snapshot).of_ok ran
    obtain rfl : last = inner := congrArg Prod.snd ended
    exact IsTrans.trans _ _ _ (Orderly.commit kept)
      (ih (fun other mem => orderly other (by simp [mem])) rest)

namespace PayoutRun

variable {p} {addr : Address} {every interval : UInt32} {w w' : World Acc Ev}
  {heights : List UInt32}

theorem block_cases {mid w'' : World Acc Ev} {block : HookBlock Acc Ev} (placed : w'.Placed)
    (orderly : ∀ tx ∈ block.transactions, tx.Keeps commit p.Orderly)
    (executed : (w'.nextBlock block.env).transactAll block.transactions = some mid)
    (unchanged : p.Unchanged addr every interval mid)
    (hooked : (p.afterExecuteTransactions block.orders block.generator).toProg.exec commit
      mid = (.ok (), w'')) :
    w''.Placed ∧ p.paidBytes mid addr = p.paidBytes w' addr ∧
      (p.paidBytes w'' addr = p.paidBytes mid addr ∨
        p.paidBytes w'' addr = uint32Bytes block.env.targetHeight ∧
          block.env.targetHeight ≥ p.paidHeight mid addr + every * interval) := by
  have transacted := p.transactAll_orderly orderly executed
  obtain ⟨unmarked, kept⟩ := transacted.heights addr rfl
  obtain ⟨_, last, _, ⟨policy, decoded, pays⟩, ended⟩ :=
    (p.afterExecuteTransactions_pays block.orders block.generator mid).of_ok hooked
  obtain rfl : last = w'' := congrArg Prod.snd ended
  have placed' := transacted.placed (Orderly.nextBlock block.env placed)
  have height : mid.env = block.env := transacted.env
  refine ⟨pays.placed placed', kept, ?_⟩
  rcases (pays.heights addr unmarked).2 with same | ⟨⟨fr, own, ⟨gen, found⟩, reached⟩, written⟩
  · exact .inl same
  · have here := policyAt_of_placed placed' found
    rw [own] at here
    subst here
    rw [isPayOutHeight, unchanged.reward policy decoded, unchanged.validator _ _ found, height,
      decide_eq_true_eq] at reached
    rw [height] at written
    exact .inr ⟨written, reached⟩

theorem last_stored (run : p.PayoutRun addr every interval w heights w') :
    w'.Placed ∧ ∀ last, heights.getLast? = some last → p.paidBytes w' addr = uint32Bytes last := by
  induction run with
  | start placed => exact ⟨placed, fun last none => by cases none⟩
  | block run block orderly executed unchanged hooked ih =>
    obtain ⟨placed', kept, outcome⟩ := block_cases ih.1 orderly executed unchanged hooked
    refine ⟨placed', ?_⟩
    intro last found
    split at found
    · rename_i same
      rw [append_nil] at found
      rw [same, kept]
      exact ih.2 last found
    · rename_i changed
      rw [getLast?_concat] at found
      obtain rfl := Option.some.inj found
      exact (outcome.resolve_left changed).1

/-- Payouts in a row are an interval apart exactly when no sum of the height of a payout, but the
last one, and the interval leaves the 32 bits. -/
theorem spaced_iff (run : p.PayoutRun addr every interval w heights w') :
    heights.IsChain (fun last next =>
        last.toNat + every.toNat * interval.toNat ≤ next.toNat) ↔
      ∀ last ∈ heights.dropLast, last.toNat + every.toNat * interval.toNat < 2 ^ 32 := by
  induction run with
  | start placed => simp
  | @block w' mid w'' heights run block orderly executed unchanged hooked ih =>
    obtain ⟨placed, stored⟩ := run.last_stored
    obtain ⟨_, kept, outcome⟩ := block_cases placed orderly executed unchanged hooked
    split
    · rw [append_nil]
      exact ih
    · rename_i changed
      have reached := (outcome.resolve_left changed).2
      rw [dropLast_concat, isChain_append, ih]
      rcases eq_nil_or_concat heights with rfl | ⟨init, last, rfl⟩
      · simp
      · rw [concat_eq_append] at stored ⊢
        have bytes : p.paidBytes mid addr = uint32Bytes last := by
          rw [kept]
          exact stored last getLast?_concat
        have before : p.paidHeight mid addr = last := by
          simp [paidHeight, bytes]
        rw [before] at reached
        have step := reached_iff reached
        simp only [dropLast_concat, getLast?_concat, head?_cons, Option.mem_def,
          Option.some.injEq, forall_eq', isChain_singleton, true_and, mem_append,
          mem_singleton, step]
        constructor
        · intro holds height mem
          rcases mem with old | rfl
          · exact holds.1 height old
          · exact holds.2
        · intro holds
          exact ⟨fun height old => holds height (.inl old), holds last (.inr rfl)⟩

end PayoutRun

def unchangedIn (addr : Address) (every interval : UInt32) (w : World Acc Ev) : Bool :=
  (match PolicyCodecs.rewardPolicy (w.processData p.pid tagRewardPolicy) with
    | .ok policy => policy.payRewardEveryBlocks == every
    | .error _ => true) &&
  match policyAt w addr with
  | some (_, policy) => policy.payOutInterval == interval
  | none => true

def runBlocks (addr : Address) (every interval : UInt32) :
    List (HookBlock Acc Ev) → World Acc Ev → Option (List UInt32 × World Acc Ev)
  | [], w => some ([], w)
  | block :: blocks, w => do
      let mid ← (w.nextBlock block.env).transactAll block.transactions
      if !p.unchangedIn addr every interval mid then none
      else
        match (p.afterExecuteTransactions block.orders block.generator).toProg.exec commit
          mid with
        | (.error _, _) => none
        | (.ok _, w') => do
            let (heights, last) ← runBlocks addr every interval blocks w'
            return ((if p.paidBytes w' addr = p.paidBytes mid addr then []
              else [block.env.targetHeight]) ++ heights, last)

variable {p} {every interval : UInt32} {addr : Address}

omit [Event Ev] [FormulatorEvents Ev] [Base58] [PairsCodec] in
theorem unchanged_of_unchangedIn {w : World Acc Ev}
    (asked : p.unchangedIn addr every interval w = true) : p.Unchanged addr every interval w := by
  rw [unchangedIn, Bool.and_eq_true] at asked
  constructor
  · intro policy decoded
    rw [decoded] at asked
    exact beq_iff_eq.mp asked.1
  · intro own policy found
    rw [found] at asked
    exact beq_iff_eq.mp asked.2

theorem PayoutRun.of_runBlocks
    {heights : List UInt32} (run : p.PayoutRun addr every interval w heights w')
    {blocks : List (HookBlock Acc Ev)}
    (orderly : ∀ block ∈ blocks, ∀ tx ∈ block.transactions, tx.Keeps commit p.Orderly)
    {more : List UInt32} {w'' : World Acc Ev}
    (ran : p.runBlocks addr every interval blocks w' = some (more, w'')) :
    p.PayoutRun addr every interval w (heights ++ more) w'' := by
  induction blocks generalizing heights w' more with
  | nil =>
    obtain ⟨rfl, rfl⟩ := Prod.mk.inj (Option.some.inj ran)
    rw [append_nil]
    exact run
  | cons block blocks ih =>
    obtain ⟨mid, executed, ran⟩ := Option.bind_eq_some_iff.mp ran
    split at ran
    · cases ran
    · rename_i unchanged
      split at ran
      · cases ran
      · rename_i w₁ hooked
        obtain ⟨⟨rest, last⟩, later, ended⟩ := Option.bind_eq_some_iff.mp ran
        obtain ⟨rfl, rfl⟩ := Prod.mk.inj (Option.some.inj ended)
        rw [← append_assoc]
        apply ih _ (fun other mem => orderly other (by simp [mem])) later
        apply PayoutRun.block run block (orderly block (by simp)) executed _ hooked
        apply unchanged_of_unchangedIn
        simpa using unchanged

end Formulator

end Runs

namespace PayoutInstances

open Instances StakingInstances

scoped instance : PolicyCodecs where
  rewardPolicy bs := .ok ⟨Amount.coin, uint32Of bs, 1000, 1000, 1000, 1000, 1000⟩
  sigmaPolicy _ := .ok ⟨0, 2⟩
  omegaPolicy _ := .ok ⟨0, 2⟩

scoped instance : HyperCreation where
  hyperCreationAmount _ := .ok (Amount.coin * 10)

def genesis (every : UInt32) : World ChainAccount PlainEvent :=
  setBalance someProcess.vault ⟨⟨1, [], 1, 0, [], 0⟩, Function.update (fun _ => .absent) someAddress
        (.present (.vault (.single ⟨someAddress, [], [7]⟩))),
      fun _ => none, fun _ _ _ => [],
      fun pid name => if pid = 3 ∧ name = toAdminAddressKey formulatorName then someAddress.bytes
        else if pid = 2 ∧ name = Formulator.tagRewardPolicy then uint32Bytes every else [],
      [], fun _ _ _ => false, fun _ _ => false⟩
    someAddress (Amount.coin * 100)

theorem genesis_placed (every : UInt32) : (genesis every).Placed := by
  intro addr acc present
  by_cases here : addr = someAddress
  · subst here
    simp only [genesis, World.setBalance, World.setAccountData, Function.update_self,
      Standing.present.injEq] at present
    rw [← present]
    rfl
  · simp [genesis, World.setBalance, World.setAccountData, here] at present

def createdAddress : Address := Address.new 1 0 0

def creation (interval : UInt32) : CreateHyper :=
  ⟨someAddress, ascii "hyper.one", [9], [9], some ⟨0, 0, interval⟩⟩

def createdBlocks (interval : UInt32) : List (HookBlock ChainAccount PlainEvent) :=
  [⟨⟨1, [], 1, 1, [], 0⟩, createdAddress, asListed, [(creation interval).run someProcess [[7]] 0]⟩,
    ⟨⟨1, [], 1, 2, [], 0⟩, createdAddress, asListed, []⟩,
    ⟨⟨1, [], 1, 3, [], 0⟩, createdAddress, asListed, []⟩,
    ⟨⟨1, [], 1, 4, [], 0⟩, createdAddress, asListed, []⟩]

variable (interval : UInt32)

theorem createdBlocks_orderly : ∀ block ∈ createdBlocks interval,
    ∀ tx ∈ block.transactions, tx.Keeps commit someProcess.Orderly := by
  intro block listed tx mem
  have created : tx = (creation interval).run someProcess [[7]] 0 := by
    simp only [createdBlocks, mem_cons, not_mem_nil, or_false] at listed
    rcases listed with rfl | rfl | rfl | rfl
    · exact mem_singleton.mp mem
    · cases mem
    · cases mem
    · cases mem
  rw [created]
  exact CreateHyper.run_orderly someProcess [[7]] 0 (creation interval)

theorem createdBlocks_run (heights : List UInt32)
    (evaluated : (someProcess.runBlocks createdAddress 2 interval (createdBlocks interval)
      (genesis 2)).map Prod.fst = some heights) :
    ∃ w', someProcess.runBlocks createdAddress 2 interval (createdBlocks interval) (genesis 2) =
        some (heights, w') ∧
      someProcess.PayoutRun createdAddress 2 interval (genesis 2) heights w' := by
  obtain ⟨⟨_, w'⟩, ran, rfl⟩ := Option.map_eq_some_iff.mp evaluated
  exact ⟨w', ran, (Formulator.PayoutRun.start (genesis_placed 2)).of_runBlocks
    (createdBlocks_orderly interval) ran⟩

/-- A payout every second block, and an interval of one round. -/
theorem payouts_two_apart : ∃ w',
    someProcess.PayoutRun createdAddress 2 1 (genesis 2) [2, 4] w' ∧
      [2, 4].IsChain fun last next : UInt32 => last.toNat + (2 : UInt32).toNat * (1 : UInt32).toNat ≤
        next.toNat := by
  obtain ⟨w', _, run⟩ := createdBlocks_run 1 [2, 4] (by decide +kernel)
  refine ⟨w', run, run.spaced_iff.mpr ?_⟩
  intro last mem
  obtain rfl : last = 2 := mem_singleton.mp mem
  decide

/-- The product of two and an interval of half the numbers is zero: the creation is accepted, and
the payouts are two blocks apart and not the interval. -/
theorem payouts_too_close : ∃ w',
    someProcess.runBlocks createdAddress 2 2147483648 (createdBlocks 2147483648) (genesis 2) =
        some ([2, 4], w') ∧
      someProcess.PayoutRun createdAddress 2 2147483648 (genesis 2) [2, 4] w' ∧
      ¬[2, 4].IsChain fun last next : UInt32 =>
        last.toNat + (2 : UInt32).toNat * (2147483648 : UInt32).toNat ≤ next.toNat := by
  obtain ⟨w', ran, run⟩ := createdBlocks_run 2147483648 [2, 4] (by decide +kernel)
  refine ⟨w', ran, run, ?_⟩
  rw [isChain_pair]
  decide

end PayoutInstances

end Fleta
