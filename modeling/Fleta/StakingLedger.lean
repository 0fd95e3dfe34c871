import Fleta.StakingTransactions

/-!
# What the staking methods do to amounts

The index tables hold no amounts. Up to their keys, every method either fails and changes
nothing or replaces one amount.
-/

namespace Fleta

open Script Formulator AmountMap Amount

variable {Acc Ev α β : Type}

namespace Formulator

/-- The keys of the index tables. -/
def Indexing (p : Formulator) (pid : UInt8) (name : Bytes) : Prop :=
  pid = p.pid ∧ name.take 2 ∈ ([[1, 1], [1, 2], [1, 3], [6, 1], [6, 2], [6, 3]] : List Bytes)

structure SameBut (p : Formulator) (w w' : World Acc Ev) : Prop where
  env : w'.env = w.env
  hasAccount : ∀ addr, w'.hasAccount addr = w.hasAccount addr
  accountData : ∀ addr pid name, ¬p.Indexing pid name →
    w'.accountData addr pid name = w.accountData addr pid name
  processData : ∀ pid name, ¬p.Indexing pid name → w'.processData pid name = w.processData pid name
  emptied : ∀ addr pid name, ¬p.Indexing pid name →
    w'.emptied addr pid name = w.emptied addr pid name
  emptiedProcess : ∀ pid name, ¬p.Indexing pid name →
    w'.emptiedProcess pid name = w.emptiedProcess pid name

variable {p : Formulator} {w w' w'' : World Acc Ev}

namespace SameBut

theorem refl (w : World Acc Ev) : p.SameBut w w :=
  ⟨rfl, fun _ => rfl, fun _ _ _ _ => rfl, fun _ _ _ => rfl, fun _ _ _ _ => rfl, fun _ _ _ => rfl⟩

theorem trans (first : p.SameBut w w') (second : p.SameBut w' w'') : p.SameBut w w'' where
  env := second.env.trans first.env
  hasAccount addr := (second.hasAccount addr).trans (first.hasAccount addr)
  accountData addr pid name other :=
    (second.accountData addr pid name other).trans (first.accountData addr pid name other)
  processData pid name other :=
    (second.processData pid name other).trans (first.processData pid name other)
  emptied addr pid name other :=
    (second.emptied addr pid name other).trans (first.emptied addr pid name other)
  emptiedProcess pid name other :=
    (second.emptiedProcess pid name other).trans (first.emptiedProcess pid name other)

theorem setAccountData {name : Bytes} (index : p.Indexing p.pid name) (addr : Address)
    (value : Bytes) : p.SameBut w (w.setAccountData addr p.pid name value) where
  env := rfl
  hasAccount _ := rfl
  accountData addr' pid' name' other := by
    refine if_neg fun hit => other ?_
    rw [hit.2.1, hit.2.2]
    exact index
  processData _ _ _ := rfl
  emptied addr' pid' name' other := by
    refine if_neg fun hit => other ?_
    rw [hit.2.1, hit.2.2]
    exact index
  emptiedProcess _ _ _ := rfl

theorem setProcessData {name : Bytes} (index : p.Indexing p.pid name) (value : Bytes) :
    p.SameBut w (w.setProcessData p.pid name value) where
  env := rfl
  hasAccount _ := rfl
  accountData _ _ _ _ := rfl
  processData pid' name' other := by
    refine if_neg fun hit => other ?_
    rw [hit.1, hit.2]
    exact index
  emptied _ _ _ _ := rfl
  emptiedProcess pid' name' other := by
    refine if_neg fun hit => other ?_
    rw [hit.1, hit.2]
    exact index

end SameBut

variable [Account Acc] [Event Ev] [Base58] (join : World Acc Ev → World Acc Ev → World Acc Ev)

def Quiet (p : Formulator) (script : Script Acc Ev α) : Prop :=
  ∀ w, ∃ result w', p.SameBut w w' ∧ script.RunsTo join w result w'

variable {join}

namespace Quiet

theorem bind {script : Script Acc Ev α} {rest : α → Script Acc Ev β} (first : p.Quiet join script)
    (second : ∀ result, p.Quiet join (rest result)) : p.Quiet join (script >>= rest) := by
  intro w
  obtain ⟨result, mid, same, run⟩ := first w
  obtain ⟨last, w', same', run'⟩ := second result mid
  exact ⟨last, w', same.trans same', run.bind run'⟩

theorem pure (result : α) : p.Quiet join (pure result : Script Acc Ev α) :=
  fun w => ⟨result, w, .refl w, .pure result w⟩

theorem accountData (addr : Address) (pid : UInt8) (name : Bytes) :
    p.Quiet join (Script.accountData addr pid name : Script Acc Ev Bytes) :=
  fun w => ⟨_, w, .refl w, fun _ => rfl⟩

theorem processData (pid : UInt8) (name : Bytes) :
    p.Quiet join (Script.processData pid name : Script Acc Ev Bytes) :=
  fun w => ⟨_, w, .refl w, fun _ => rfl⟩

theorem setAccountData {name : Bytes} (index : p.Indexing p.pid name) (addr : Address)
    (value : Bytes) :
    p.Quiet join (Script.setAccountData addr p.pid name value : Script Acc Ev Unit) :=
  fun _ => ⟨(), _, .setAccountData index addr value, fun _ => rfl⟩

theorem setProcessData {name : Bytes} (index : p.Indexing p.pid name) (value : Bytes) :
    p.Quiet join (Script.setProcessData p.pid name value : Script Acc Ev Unit) :=
  fun _ => ⟨(), _, .setProcessData index value, fun _ => rfl⟩

end Quiet

structure QuietTable (p : Formulator) (join : World Acc Ev → World Acc Ev → World Acc Ev)
    (table : Index Acc Ev) : Prop where
  read : ∀ name, p.Quiet join (table.read name)
  number : ∀ addr value, p.Quiet join (table.write (table.numberKey addr) value)
  reverse : ∀ num value, p.Quiet join (table.write (table.reverseKey num) value)
  count : ∀ value, p.Quiet join (table.write table.countKey value)

theorem quiet_stakers (hyper : Address) : p.QuietTable join (p.stakers hyper : Index Acc Ev) where
  read name := .accountData hyper p.pid name
  number addr value := .setAccountData ⟨rfl, by simp [stakers, toStakingAmountNumberKey]⟩ hyper value
  reverse num value :=
    .setAccountData ⟨rfl, by simp [stakers, toStakingAmountReverseKey]⟩ hyper value
  count value := .setAccountData ⟨rfl, by simp [stakers, tagStakingAmountCount]⟩ hyper value

theorem quiet_unstakers (height : UInt32) :
    p.QuietTable join (p.unstakers height : Index Acc Ev) where
  read name := .processData p.pid name
  number addr value := .setProcessData ⟨rfl, by simp [unstakers, toUnstakingAmountNumberKey]⟩ value
  reverse num value := .setProcessData ⟨rfl, by simp [unstakers, toUnstakingAmountReverseKey]⟩ value
  count value := .setProcessData ⟨rfl, by simp [unstakers, toUnstakingAmountCountKey]⟩ value

theorem QuietTable.closed {table : Index Acc Ev} (quiet : p.QuietTable join table) :
    table.Closed fun _ script => p.Quiet join script :=
  ⟨Quiet.bind, Quiet.pure, quiet.read, quiet.number, quiet.reverse, quiet.count⟩

end Formulator

/-- The places that hold an amount of coins. -/
inductive Pot where
  | balance (addr : Address)
  | collected
  | staked (hyper staker : Address)
  | pending (height : UInt32) (staker hyper : Address)
deriving DecidableEq

namespace Formulator

section Amounts

variable [PairsCodec] (p : Formulator) (w : World Acc Ev)

def storedMap (height : UInt32) (staker : Address) : Except Err (SortedMap Address Int) :=
  let bs := w.processData p.pid (toUnstakingAmountKey height staker)
  if bs.length > 0 then unmarshal bs else .error .notExistUnstakingAmount

def pendingMap (height : UInt32) (staker : Address) : SortedMap Address Int :=
  match p.storedMap w height staker with
  | .ok mp => mp
  | .error _ => .empty

def amount : Pot → Int
  | .balance addr => w.balance p.vault addr
  | .collected => w.collectedFee p.vault
  | .staked hyper staker => ofBytes (w.accountData hyper p.pid (toStakingAmountKey staker))
  | .pending height staker hyper => ((p.pendingMap w height staker).get hyper).getD 0

/-- The key of the pot was emptied in this layer. -/
def marked : Pot → Bool
  | .balance addr => w.emptied addr p.vault.pid Vault.tagBalance
  | .collected => w.emptiedProcess p.vault.pid Vault.tagCollectedFee
  | .staked hyper staker => w.emptied hyper p.pid (toStakingAmountKey staker)
  | .pending height staker _ => w.emptiedProcess p.pid (toUnstakingAmountKey height staker)

theorem amount_nonneg (pot : Pot) : 0 ≤ p.amount w pot := by
  cases pot with
  | balance | collected | staked => exact ofBytes_nonneg _
  | pending height staker hyper =>
    simp only [amount, pendingMap, storedMap]
    split
    · rename_i decoded
      split at decoded
      · cases found : SortedMap.get _ hyper with
        | none => simp
        | some am => exact unmarshal_nonneg decoded found
      · cases decoded
    · simp

end Amounts

variable {p : Formulator} {w w' w'' : World Acc Ev}

/-- What the transactions read besides amounts. -/
structure Frame (p : Formulator) (w w' : World Acc Ev) : Prop where
  env : w'.env = w.env
  hasAccount : ∀ addr, w'.hasAccount addr = w.hasAccount addr
  defaultFee : w'.defaultFee p.vault = w.defaultFee p.vault
  policy : w'.processData p.pid tagHyperPolicy = w.processData p.pid tagHyperPolicy

theorem Frame.trans (first : p.Frame w w') (second : p.Frame w' w'') : p.Frame w w'' where
  env := second.env.trans first.env
  hasAccount addr := (second.hasAccount addr).trans (first.hasAccount addr)
  defaultFee := second.defaultFee.trans first.defaultFee
  policy := second.policy.trans first.policy

section SameAmounts

theorem not_indexing_of_pid {pid : UInt8} (other : pid ≠ p.pid) (name : Bytes) :
    ¬p.Indexing pid name := fun index => other index.1

theorem not_indexing_staked (staker : Address) : ¬p.Indexing p.pid (toStakingAmountKey staker) := by
  simp [Indexing, toStakingAmountKey]

theorem not_indexing_pending (height : UInt32) (staker : Address) :
    ¬p.Indexing p.pid (toUnstakingAmountKey height staker) := by
  simp [Indexing, toUnstakingAmountKey]

theorem SameBut.frame (same : p.SameBut w w') : p.Frame w w' where
  env := same.env
  hasAccount := same.hasAccount
  defaultFee := by
    simp only [World.defaultFee,
      same.processData _ _ (not_indexing_of_pid p.distinct.symm Vault.tagDefaultFee)]
  policy := same.processData _ _ (by simp [Indexing, tagHyperPolicy])

/-- The key that a pot is kept under, of an account or of the process. -/
def cell (p : Formulator) : Pot → Option Address × UInt8 × Bytes
  | .balance addr => (some addr, p.vault.pid, Vault.tagBalance)
  | .collected => (none, p.vault.pid, Vault.tagCollectedFee)
  | .staked hyper staker => (some hyper, p.pid, toStakingAmountKey staker)
  | .pending height staker _ => (none, p.pid, toUnstakingAmountKey height staker)

/-- Only the pending amounts of one staker share a cell. -/
theorem cell_eq {pot other : Pot} (same : p.cell other = p.cell pot) : other = pot ∨
    ∃ height staker hyper hyper', other = .pending height staker hyper' ∧
      pot = .pending height staker hyper := by
  cases other <;> cases pot <;> simp_all [cell, p.distinct, p.distinct.symm]

def AgreeAt (w w' : World Acc Ev) : Option Address × UInt8 × Bytes → Prop
  | (some addr, pid, name) => w'.accountData addr pid name = w.accountData addr pid name ∧
      w'.emptied addr pid name = w.emptied addr pid name
  | (none, pid, name) => w'.processData pid name = w.processData pid name ∧
      w'.emptiedProcess pid name = w.emptiedProcess pid name

theorem agreeAt_setAccountData {addr : Address} {pid : UInt8} {name value : Bytes}
    {at' : Option Address × UInt8 × Bytes} (other : at' ≠ (some addr, pid, name)) :
    AgreeAt w (w.setAccountData addr pid name value) at' := by
  rcases at' with ⟨_ | _, _, _⟩ <;> simp_all [AgreeAt, World.setAccountData]

theorem agreeAt_setProcessData {pid : UInt8} {name value : Bytes}
    {at' : Option Address × UInt8 × Bytes} (other : at' ≠ (none, pid, name)) :
    AgreeAt w (w.setProcessData pid name value) at' := by
  rcases at' with ⟨_ | _, _, _⟩ <;> simp_all [AgreeAt, World.setProcessData]

theorem SameBut.agreeAt (same : p.SameBut w w') (pot : Pot) : AgreeAt w w' (p.cell pot) := by
  have other := not_indexing_of_pid p.distinct.symm
  cases pot with
  | balance => exact ⟨same.accountData _ _ _ (other _), same.emptied _ _ _ (other _)⟩
  | collected => exact ⟨same.processData _ _ (other _), same.emptiedProcess _ _ (other _)⟩
  | staked _ staker =>
    have kept := not_indexing_staked (p := p) staker
    exact ⟨same.accountData _ _ _ kept, same.emptied _ _ _ kept⟩
  | pending height staker =>
    have kept := not_indexing_pending (p := p) height staker
    exact ⟨same.processData _ _ kept, same.emptiedProcess _ _ kept⟩

theorem AgreeAt.marked {pot : Pot} (agree : AgreeAt w w' (p.cell pot)) :
    p.marked w' pot = p.marked w pot := by
  cases pot <;> exact agree.2

theorem SameBut.marked (same : p.SameBut w w') : p.marked w' = p.marked w :=
  funext fun pot => (same.agreeAt pot).marked

variable [PairsCodec]

theorem AgreeAt.amount {pot : Pot} (agree : AgreeAt w w' (p.cell pot)) :
    p.amount w' pot = p.amount w pot := by
  cases pot with
  | balance | collected | staked => exact congrArg ofBytes agree.1
  | pending => simp only [Formulator.amount, pendingMap, storedMap, agree.1]

theorem SameBut.amount (same : p.SameBut w w') : p.amount w' = p.amount w :=
  funext fun pot => (same.agreeAt pot).amount

end SameAmounts

section Puts

variable [PairsCodec]

/-- One pot was given another amount, which is stored without its sign. -/
structure Puts (p : Formulator) (pot : Pot) (am : Int) (w w' : World Acc Ev) : Prop
    extends p.Frame w w' where
  amount : p.amount w' = Function.update (p.amount w) pot am.natAbs
  marked : ∀ other, p.marked w' other = true →
    (other = pot ∧ am = 0) ∨ (other ≠ pot ∧ p.marked w other = true)

namespace Puts

variable {pot : Pot} {am : Int}

theorem after (puts : p.Puts pot am w' w'') (same : p.SameBut w w') : p.Puts pot am w w'' where
  toFrame := same.frame.trans puts.toFrame
  amount := by rw [puts.amount, same.amount]
  marked other mark := same.marked ▸ puts.marked other mark

theorem before (puts : p.Puts pot am w w') (same : p.SameBut w' w'') : p.Puts pot am w w'' where
  toFrame := puts.toFrame.trans same.frame
  amount := by rw [same.amount, puts.amount]
  marked other mark := puts.marked other (same.marked ▸ mark)

theorem unmarked (puts : p.Puts pot am w w') {other : Pot} (clean : p.marked w other = false)
    (kept : other = pot → am ≠ 0) : p.marked w' other = false := by
  by_contra mark
  rcases puts.marked other (Bool.not_eq_false _ ▸ mark) with ⟨same, zero⟩ | ⟨_, old⟩
  · exact kept same zero
  · rw [clean] at old
    cases old

end Puts

theorem Puts.of_cell {pot : Pot} {am : Int} (frame : p.Frame w w')
    (elsewhere : ∀ at', at' ≠ p.cell pot → AgreeAt w w' at')
    (shared : ∀ other, p.cell other = p.cell pot → other ≠ pot →
      p.amount w' other = p.amount w other ∧ p.marked w' other = false)
    (amount : p.amount w' pot = am.natAbs) (marked : p.marked w' pot = true → am = 0) :
    p.Puts pot am w w' where
  toFrame := frame
  amount := by
    funext other
    by_cases same : other = pot
    · rw [same, amount, Function.update_self]
    · rw [Function.update_of_ne same]
      by_cases here : p.cell other = p.cell pot
      · exact (shared other here same).1
      · exact (elsewhere _ here).amount
  marked other mark := by
    by_cases same : other = pot
    · exact .inl ⟨same, marked (same ▸ mark)⟩
    · refine .inr ⟨same, ?_⟩
      by_cases here : p.cell other = p.cell pot
      · rw [(shared other here same).2] at mark
        cases mark
      · rw [← (elsewhere _ here).marked, mark]

theorem puts_balance (addr : Address) (am : Int) :
    p.Puts (.balance addr) am w (w.setBalance p.vault addr am) := by
  refine .of_cell ⟨rfl, fun _ => rfl, rfl, rfl⟩ (fun _ => agreeAt_setAccountData) ?_ ?_ ?_
  · exact fun other here apart => absurd (cell_eq here) (by simp [apart])
  · simp [amount, World.balance, World.setBalance, World.setAccountData, ofBytes_toBytes]
  · simpa [marked, World.setBalance, World.setAccountData] using eq_zero_of_toBytes_isEmpty

theorem puts_collected (am : Int) : p.Puts .collected am w (w.setCollectedFee p.vault am) := by
  refine .of_cell ⟨rfl, fun _ => rfl, ?_, ?_⟩ (fun _ => agreeAt_setProcessData) ?_ ?_ ?_
  · simp [World.defaultFee, World.setCollectedFee, World.setProcessData, Vault.tagDefaultFee,
      Vault.tagCollectedFee]
  · simp [World.setCollectedFee, World.setProcessData, p.distinct]
  · exact fun other here apart => absurd (cell_eq here) (by simp [apart])
  · simp [amount, World.collectedFee, World.setCollectedFee, World.setProcessData, ofBytes_toBytes]
  · simpa [marked, World.setCollectedFee, World.setProcessData] using eq_zero_of_toBytes_isEmpty

theorem puts_staked (hyper staker : Address) (am : Int) :
    p.Puts (.staked hyper staker) am w
      (w.setAccountData hyper p.pid (toStakingAmountKey staker) (toBytes am)) := by
  refine .of_cell ⟨rfl, fun _ => rfl, rfl, rfl⟩ (fun _ => agreeAt_setAccountData) ?_ ?_ ?_
  · exact fun other here apart => absurd (cell_eq here) (by simp [apart])
  · simp [amount, World.setAccountData, ofBytes_toBytes]
  · simpa [marked, World.setAccountData] using eq_zero_of_toBytes_isEmpty

variable [LawfulPairsCodec]

theorem get_pendingMap_stored (w : World Acc Ev) (height : UInt32) (staker hyper : Address)
    (mp : SortedMap Address Int) :
    (p.pendingMap (w.setProcessData p.pid (toUnstakingAmountKey height staker)
      (marshal mp)) height staker).get hyper =
      (mp.get hyper).map fun am => (am.natAbs : Int) := by
  obtain ⟨mp', decoded, read⟩ := unmarshal_marshal mp
  have long : 0 < (marshal mp).length := List.length_pos_of_ne_nil (marshal_ne_nil mp)
  have now : p.pendingMap (w.setProcessData p.pid (toUnstakingAmountKey height staker)
      (marshal mp)) height staker = mp' := by
    simp [pendingMap, storedMap, World.setProcessData, long, decoded]
  rw [now, read]

theorem puts_pending {height : UInt32} {staker hyper : Address} {am : Int}
    {mp : SortedMap Address Int} (here : ((mp.get hyper).getD 0).natAbs = am.natAbs)
    (others : ∀ other, other ≠ hyper → mp.get other = (p.pendingMap w height staker).get other) :
    p.Puts (.pending height staker hyper) am w
      (w.setProcessData p.pid (toUnstakingAmountKey height staker) (marshal mp)) := by
  have stored : ∀ other, p.amount (w.setProcessData p.pid (toUnstakingAmountKey height staker)
      (marshal mp)) (.pending height staker other) = ((mp.get other).getD 0).natAbs := by
    intro other
    rw [amount, get_pendingMap_stored]
    cases mp.get other <;> rfl
  have full : (marshal mp).isEmpty = false := List.isEmpty_eq_false_iff.mpr (marshal_ne_nil mp)
  refine .of_cell ⟨rfl, fun _ => rfl, ?_, ?_⟩ (fun _ => agreeAt_setProcessData) ?_ ?_ ?_
  · simp [World.defaultFee, World.setProcessData, p.distinct.symm]
  · simp [World.setProcessData, tagHyperPolicy, toUnstakingAmountKey]
  · intro other here apart
    obtain ⟨_, _, _, hyper', rfl, same⟩ := (cell_eq here).resolve_left apart
    cases same
    rw [stored, others hyper' fun same => apart (same ▸ rfl)]
    refine ⟨Int.natAbs_of_nonneg (p.amount_nonneg w (.pending height staker hyper')), ?_⟩
    simp [marked, World.setProcessData, full]
  · rw [stored, here]
  · simp [marked, World.setProcessData, full]

end Puts

variable [Account Acc] [Event Ev] [Base58] [PairsCodec]
  {join : World Acc Ev → World Acc Ev → World Acc Ev}

theorem addStakingAmount_runs (hyper staker : Address) (am : Int) (w : World Acc Ev) :
    ∃ mid, p.Puts (.staked hyper staker) (p.amount w (.staked hyper staker) + am) w mid ∧
      (p.addStakingAmount hyper staker am).RunsTo join w () mid := by
  have index : p.QuietTable join (p.stakers hyper) := quiet_stakers hyper
  obtain ⟨_, indexed, same, added⟩ := index.closed.add staker w
  have held : ofBytes (indexed.accountData hyper p.pid (toStakingAmountKey staker)) =
      p.amount w (.staked hyper staker) := congrFun same.amount (.staked hyper staker)
  refine ⟨_, (puts_staked hyper staker _).after same, added.bind ?_⟩
  intro next
  simp [getStakingAmount, held]

variable {hyper staker : Address} {am : Int}

theorem subStakingAmount_short (short : p.amount w (.staked hyper staker) < am) :
    (p.subStakingAmount hyper staker am).RunsTo join w (.error .minusStakingAmount) w := by
  intro next
  simp only [amount] at short
  simp [subStakingAmount, getStakingAmount, short]

theorem subStakingAmount_runs (enough : am ≤ p.amount w (.staked hyper staker)) :
    ∃ mid, p.Puts (.staked hyper staker) (p.amount w (.staked hyper staker) - am) w mid ∧
      (p.amount w (.staked hyper staker) = am → p.marked mid (.staked hyper staker) = true) ∧
      (p.subStakingAmount hyper staker am).RunsTo join w (.ok ()) mid := by
  have held : ofBytes (w.accountData hyper p.pid (toStakingAmountKey staker)) =
      p.amount w (.staked hyper staker) := rfl
  by_cases zero : p.amount w (.staked hyper staker) - am = 0
  · have index : p.QuietTable join (p.stakers hyper) := quiet_stakers hyper
    obtain ⟨_, mid, same, dropped⟩ := index.closed.drop staker w
    have puts := (puts_staked (w := mid) hyper staker 0).after same
    rw [zero]
    refine ⟨_, puts, fun _ => by simp [marked, World.setAccountData], ?_⟩
    intro next
    have dropped := dropped fun _ =>
      Script.setAccountData hyper p.pid (toStakingAmountKey staker) [] fun _ => next (.ok ())
    simpa [subStakingAmount, getStakingAmount, held, not_lt.mpr enough, zero] using dropped
  · refine ⟨_, puts_staked hyper staker _, fun same => absurd (sub_eq_zero.mpr same) zero, ?_⟩
    intro next
    simp [subStakingAmount, getStakingAmount, held, not_lt.mpr enough, zero]

omit [PairsCodec] in
theorem addToTotal_runs [FormulatorAccounts Acc] (hyper : Address) (am : Int) (w : World Acc Ev) :
    ∃ mid, p.SameBut w mid ∧ (addToTotal hyper am).RunsTo join w () mid := by
  refine ⟨w.updateAccount hyper (adjustStaking am), ?_, fun _ => rfl⟩
  unfold World.updateAccount
  split
  · rename_i acc present
    refine ⟨rfl, fun addr => ?_, fun _ _ _ _ => rfl, fun _ _ _ => rfl, fun _ _ _ _ => rfl,
      fun _ _ _ => rfl⟩
    by_cases same : addr = hyper
    · simp [World.hasAccount, World.stand, same, present]
    · simp [World.hasAccount, World.stand, same]
  · exact .refl w

variable [LawfulPairsCodec]

omit [LawfulPairsCodec] in
@[simp] theorem exec_getUnstakingAmountMap (staker : Address) (height : UInt32)
    (next : Except Err (SortedMap Address Int) → Prog Acc Ev) :
    (p.getUnstakingAmountMap staker height next).exec join w =
      (next (p.storedMap w height staker)).exec join w := by
  simp [getUnstakingAmountMap, storedMap]

variable {next : Unit → Prog Acc Ev} {height : UInt32}

theorem addUnstakingAmount_ok
    (done : (p.addUnstakingAmount hyper staker height am next).exec join w = (.ok (), w')) :
    ∃ mid, p.Puts (.pending height staker hyper)
        (p.amount w (.pending height staker hyper) + am) w mid ∧
      (next ()).exec join mid = (.ok (), w') := by
  have index : p.QuietTable join (p.unstakers height) := quiet_unstakers height
  obtain ⟨_, indexed, same, added⟩ := index.closed.add staker w
  have written : ∀ mp, p.pendingMap indexed height staker = mp →
      p.Puts (.pending height staker hyper) (p.amount w (.pending height staker hyper) + am) w
        (indexed.setProcessData p.pid (toUnstakingAmountKey height staker)
          (marshal (mp.put hyper ((mp.get hyper).getD 0 + am)))) := by
    rintro mp rfl
    refine (puts_pending ?_ fun other different => ?_).after same
    · rw [SortedMap.get_put_self, Option.getD_some, ← same.amount]
      rfl
    · rw [SortedMap.get_put_of_ne _ _ different.symm]
  simp only [addUnstakingAmount, bind_apply] at done
  rw [added, exec_getUnstakingAmountMap] at done
  cases stored : p.storedMap indexed height staker with
  | ok mp =>
    rw [stored] at done
    exact ⟨_, written mp (by rw [pendingMap, stored]), done⟩
  | error err =>
    rw [stored] at done
    dsimp only at done
    split at done
    · cases done
    · exact ⟨_, written .empty (by rw [pendingMap, stored]), done⟩

omit [PairsCodec] [LawfulPairsCodec] in
theorem quiet_removeUnstakingAmount (staker : Address) (height : UInt32) :
    p.Quiet join (p.removeUnstakingAmount staker height : Script Acc Ev (Except Err Unit)) := by
  have index : p.QuietTable join (p.unstakers height) := quiet_unstakers height
  apply (Quiet.processData _ _).bind
  intro ns
  split
  · exact .pure _
  · apply (index.closed.remove staker ns).bind
    intro _
    exact .pure _

/-- The map of the staker holds nothing but this amount. -/
def Drains (p : Formulator) (w : World Acc Ev) (height : UInt32) (staker hyper : Address)
    (am : Int) : Prop :=
  p.pendingMap w height staker = SortedMap.empty.put hyper am

theorem subUnstakingAmount_ok
    (done : (p.subUnstakingAmount hyper staker height am next).exec join w = (.ok (), w')) :
    ∃ mid, am ≤ p.amount w (.pending height staker hyper) ∧
      (p.Drains w height staker hyper am → p.SameBut w mid) ∧
      (¬p.Drains w height staker hyper am → p.Puts (.pending height staker hyper)
          (p.amount w (.pending height staker hyper) - am) w mid ∧
        (p.amount w (.pending height staker hyper) = am →
          (p.pendingMap mid height staker).get hyper = none)) ∧
      (next ()).exec join mid = (.ok (), w') := by
  simp only [subUnstakingAmount, bind_apply, exec_getUnstakingAmountMap] at done
  cases stored : p.storedMap w height staker with
  | error err =>
    rw [stored] at done
    cases done
  | ok mp =>
    have pending : p.pendingMap w height staker = mp := by rw [pendingMap, stored]
    simp only [stored, check, pure_apply] at done
    cases found : mp.get hyper with
    | none =>
      rw [found] at done
      cases done
    | some sum =>
      have held : p.amount w (.pending height staker hyper) = sum := by
        rw [amount, pending, found, Option.getD_some]
      simp only [found] at done
      split at done
      · cases done
      rename_i enough
      rw [held, Drains, pending, ← len_leave_eq_zero found]
      split at done
      · rename_i left
        refine ⟨_, not_lt.mp enough, fun drained => absurd drained (Nat.ne_of_gt left),
          fun _ => ⟨puts_pending ?_ fun other different => ?_, fun all => ?_⟩, done⟩
        · rw [get_leave_self]
        · rw [pending, get_leave_of_ne different.symm]
        · rw [get_pendingMap_stored, leave, if_pos (sub_eq_zero.mpr all),
            SortedMap.get_delete_self, Option.map_none]
      · rename_i drained
        have quiet : p.Quiet join (p.removeUnstakingAmount staker height) :=
          quiet_removeUnstakingAmount staker height
        obtain ⟨_, mid, same, removed⟩ := quiet w
        rw [bind_apply, removed] at done
        exact ⟨mid, not_lt.mp enough, fun _ => same,
          fun left => absurd (Nat.eq_zero_of_not_pos drained) left, done⟩

end Formulator

end Fleta
