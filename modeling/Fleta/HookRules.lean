import Fleta.RewardHook
import Fleta.ScriptResults

/-!
# Rules for the methods of the hook

What the methods that the hook calls can write, for any relation that their writes keep to:
an index table writes its own keys, and staked amounts are written in the table of the
stakers and under the keys of the amounts.
-/

namespace Fleta

open Script

variable {Acc Ev : Type}

namespace World

def isPresent (w : World Acc Ev) (addr : Address) : Bool :=
  match w.standing addr with
  | .present _ => true
  | _ => false

theorem isPresent_of_standing {w w' : World Acc Ev} (same : w'.standing = w.standing) :
    w'.isPresent = w.isPresent := by
  funext addr
  rw [isPresent, isPresent, same]

@[simp] theorem isPresent_updateAccount (w : World Acc Ev) (addr : Address) (change : Acc → Acc) :
    (w.updateAccount addr change).isPresent = w.isPresent := by
  funext other
  unfold updateAccount
  split
  · rename_i acc present
    by_cases same : other = addr
    · subst same
      simp [isPresent, stand, present]
    · simp [isPresent, stand, same]
  · rfl

end World

section Rules

variable [Account Acc] [Event Ev] [Base58] {join : World Acc Ev → World Acc Ev → World Acc Ev}
  {w : World Acc Ev}

theorem isAccount_runs (w : World Acc Ev) (addr : Address) :
    (Script.isAccount addr).RunsTo join w (w.isPresent addr) w := by
  intro next
  simp only [Script.isAccount, bind_apply, exec_hasAccount, World.hasAccount, World.isPresent]
  cases w.standing addr <;> rfl

variable {addr : Address}

theorem Script.Ends.isAccount {post : Bool → World Acc Ev → Prop}
    (holds : post (w.isPresent addr) w) : (Script.isAccount addr).Ends join w post :=
  of_run (isAccount_runs w addr) holds

variable {v : Vault}

theorem Vault.addBalance_ends {am : Int} {post : Unit → World Acc Ev → Prop}
    (holds : 0 ≤ am → post () (w.setBalance v addr (w.balance v addr + am))) :
    (v.addBalance addr am).Ends join w post := by
  by_cases minus : am < 0
  · refine .inr ⟨.minusInput, w, ?_⟩
    intro next
    simp [Vault.addBalance, minus]
  · exact Ends.of_run (fun next => v.exec_addBalance join w next (not_lt.mp minus) addr)
      (holds (not_lt.mp minus))

variable {rel : World Acc Ev → World Acc Ev → Prop}

theorem Script.Keeps.isAccount [Std.Refl rel]
    (addr : Address) : (Script.isAccount addr : Script Acc Ev Bool).Keeps join rel :=
  of_reads fun _ => Ends.isAccount rfl

theorem Vault.subBalance_keeps (related : ∀ w am, rel w (w.setBalance v addr am)) (am : Int) :
    (v.subBalance addr am : Script Acc Ev Unit).Keeps join rel := by
  intro w
  by_cases short : w.balance v addr < am
  · refine .inr ⟨.minusBalance, w, fun next => ?_⟩
    rw [v.exec_subBalance, if_pos short]
  · refine .inl ⟨(), _, fun next => ?_, related w (w.balance v addr - am)⟩
    rw [v.exec_subBalance, if_neg short]

theorem Vault.subCollectedFee_runs (v : Vault) (w : World Acc Ev) :
    (v.subCollectedFee (w.collectedFee v)).RunsTo join w ()
      (w.setProcessData v.pid Vault.tagCollectedFee []) := by
  intro next
  simp [Vault.subCollectedFee]

theorem Vault.addBalance_keeps (related : ∀ w am, rel w (w.setBalance v addr am)) (am : Int) :
    (v.addBalance addr am : Script Acc Ev Unit).Keeps join rel :=
  fun w => Vault.addBalance_ends fun _ => related w _

end Rules

def IndexKeys.IsKey (keys : IndexKeys) (name : Bytes) : Prop :=
  (∃ addr, name = keys.numberKey addr) ∨ (∃ num, name = keys.reverseKey num) ∨ name = keys.countKey

section Tables

variable [Account Acc] [Event Ev] [Base58] (join : World Acc Ev → World Acc Ev → World Acc Ev)
  (rel : World Acc Ev → World Acc Ev → Prop)

structure Index.Within (table : Index Acc Ev) : Prop where
  read : ∀ name, (table.read name).Keeps join rel
  write : ∀ name value, table.IsKey name → (table.write name value).Keeps join rel

variable {join rel} [Std.Refl rel] [IsTrans (World Acc Ev) rel] {table : Index Acc Ev}

namespace Index.Within

variable (within : table.Within join rel)

include within

theorem closed : table.Closed fun _ script => script.Keeps join rel where
  bind := Keeps.bind
  pure := .pure
  read := within.read
  number addr value := within.write _ value (.inl ⟨addr, rfl⟩)
  reverse num value := within.write _ value (.inr (.inl ⟨num, rfl⟩))
  total value := within.write _ value (.inr (.inr rfl))

theorem add (addr : Address) : (table.add addr).Keeps join rel := within.closed.add addr

end Index.Within

end Tables

namespace Formulator

variable [Account Acc] [Event Ev] [Base58] {join : World Acc Ev → World Acc Ev → World Acc Ev}
  {rel : World Acc Ev → World Acc Ev → Prop} [Std.Refl rel] [IsTrans (World Acc Ev) rel]
  {p : Formulator} {hyper : Address}

theorem getStakingAmount_keeps (staker : Address) :
    (p.getStakingAmount hyper staker : Script Acc Ev Int).Keeps join rel :=
  (Keeps.accountData _ _ _).map

theorem getStakingAmountMap_keeps :
    (p.getStakingAmountMap hyper : Script Acc Ev _).Keeps join rel := by
  apply (Keeps.accountData _ _ _).bind
  intro bs
  split
  · apply Keeps.foldlM
    intro amounts i
    apply (Keeps.accountData _ _ _).bind
    intro bs
    exact (getStakingAmount_keeps _).map
  · exact .pure _

theorem existingPowers_keeps (powers : SortedMap Address Int) :
    (existingPowers powers : Script Acc Ev _).Keeps join rel := by
  apply Keeps.bind _ fun _ => Keeps.pure _
  apply Keeps.foldlM
  intro sums entry
  apply (Keeps.isAccount entry.1).bind
  intro present
  split <;> exact Keeps.pure _

theorem loadAmountMap_keeps [PairsCodec] (addr : Address) (name : Bytes) :
    (p.loadAmountMap addr name : Script Acc Ev _).Keeps join rel := by
  apply (Keeps.accountData _ _ _).bind
  intro bs
  split
  · exact Keeps.check _
  · exact Keeps.pure _

theorem flushGenCountMap_keeps
    (writes : ∀ w name value, name.head? = some 3 → rel w (w.setProcessData p.pid name value)) :
    (p.flushGenCountMap : Script Acc Ev _).Keeps join rel := by
  have write : ∀ name value, name.head? = some 3 →
      (setProcessData p.pid name value : Script Acc Ev Unit).Keeps join rel :=
    fun name value starts => Keeps.setProcessData fun w => writes w name value starts
  apply (Keeps.processData _ _).bind
  intro bs
  split
  · apply Keeps.bind
    · apply Keeps.foldlM
      intro counts i
      apply (Keeps.processData _ _).bind
      intro bs
      apply ((Keeps.processData _ _).map).bind
      intro count
      apply (write _ _ rfl).bind
      intro _
      apply (write _ _ rfl).bind
      intro _
      exact (write _ _ rfl).map
    · intro counts
      exact (write _ _ rfl).map
  · exact .pure _

/-- What the methods of staked amounts write: the keys that start with 1. -/
def KeepsStaking (p : Formulator) (rel : World Acc Ev → World Acc Ev → Prop) (hyper : Address) :
    Prop :=
  ∀ w name value, name.head? = some 1 → rel w (w.setAccountData hyper p.pid name value)

variable (writes : p.KeepsStaking rel hyper)

include writes

omit [IsTrans (World Acc Ev) rel] in
theorem stakers_within : (p.stakers hyper : Index Acc Ev).Within join rel where
  read := Keeps.accountData hyper p.pid
  write name value key := by
    apply Keeps.setAccountData
    intro w
    apply writes
    rcases key with ⟨addr, rfl⟩ | ⟨num, rfl⟩ | rfl <;> rfl

theorem addStakingAmount_keeps (staker : Address) (am : Int) :
    (p.addStakingAmount hyper staker am : Script Acc Ev Unit).Keeps join rel := by
  apply ((stakers_within writes).add staker).bind
  intro _
  apply (getStakingAmount_keeps staker).bind
  intro total
  exact .setAccountData fun w => writes w _ _ rfl

theorem subStakingAmount_keeps (staker : Address) (am : Int) :
    (p.subStakingAmount hyper staker am : Script Acc Ev _).Keeps join rel := by
  apply (getStakingAmount_keeps staker).bind
  intro total
  split
  · exact .pure _
  · split
    · apply ((stakers_within writes).closed.drop staker).bind
      intro _
      exact (Keeps.setAccountData fun w => writes w _ _ rfl).map
    · exact (Keeps.setAccountData fun w => writes w _ _ rfl).map

end Formulator

end Fleta
