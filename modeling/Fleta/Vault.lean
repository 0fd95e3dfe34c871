import Fleta.Amount
import Fleta.ScriptRules
import Mathlib.Data.Fintype.Pi

/-!
# The vault

Balances are account data of the vault process and the collected fee is its process data.
Every method comes with the equation of its effect on a key-value state: a balance is
replaced, the collected fee is replaced, or the method fails and changes nothing.
-/

namespace Fleta

open Amount

variable {Acc Ev : Type}

/-- The vault process, the admin process it asks, and the magic number of the chain. -/
structure Vault where
  pid : UInt8
  adminPid : UInt8
  magic : UInt64

namespace Vault

def tagBalance : Bytes := [1, 1]

def tagCollectedFee : Bytes := [3, 1]

def tagPolicy : Bytes := [4, 0]

def tagDefaultFee : Bytes := [4, 1]

variable (v : Vault)

open Script

def balance (addr : Address) : Script Acc Ev Int := do
  let bs ← accountData addr v.pid tagBalance
  return ofStored bs

def addBalance (addr : Address) (am : Int) : Script Acc Ev Unit := do
  if am < 0 then fail .minusInput
  else
    let sum ← v.balance addr
    setAccountData addr v.pid tagBalance (toBytes (sum + am))

def removeBalance (addr : Address) : Script Acc Ev Unit :=
  setAccountData addr v.pid tagBalance []

def subBalance (addr : Address) (am : Int) : Script Acc Ev Unit := do
  let sum ← v.balance addr
  if sum < am then fail .minusBalance
  else if sum - am = 0 then v.removeBalance addr
  else setAccountData addr v.pid tagBalance (toBytes (sum - am))

def collectedFee : Script Acc Ev Int := do
  let bs ← processData v.pid tagCollectedFee
  return ofStored bs

def addCollectedFee (am : Int) : Script Acc Ev Unit := do
  if am < 0 then fail .minusInput
  else
    let total ← v.collectedFee
    setProcessData v.pid tagCollectedFee (toBytes (total + am))

def subCollectedFee (am : Int) : Script Acc Ev Unit := do
  let total ← v.collectedFee
  if total < am then fail .minusCollectedFee
  else if total - am = 0 then setProcessData v.pid tagCollectedFee []
  else setProcessData v.pid tagCollectedFee (toBytes (total - am))

def getDefaultFee : Script Acc Ev Int := do
  let bs ← processData v.pid tagDefaultFee
  return if bs.length = 0 then coin / 10 else ofBytes bs

/-- The fee of every fee transaction is the default fee. The error is the result. -/
def checkFeePayableWith (sender : Address) (am : Option Int) :
    Script Acc Ev (Except Err Unit) := do
  match ← hasAccount sender with
  | .error err => return .error err
  | .ok false => return .error .notExistAccount
  | .ok true =>
    let fee ← v.getDefaultFee
    let am := match am with
      | some am => am + fee
      | none => fee
    let b ← v.balance sender
    return if b < am then .error .insufficientFee else .ok ()

def checkFeePayable (sender : Address) : Script Acc Ev (Except Err Unit) :=
  v.checkFeePayableWith sender none

/-- The fee is taken before the snapshot in which the body runs. -/
def withFee (sender : Address) (body : Script Acc Ev Unit) : Script Acc Ev Unit := do
  let fee ← v.getDefaultFee
  v.subBalance sender fee
  let total ← v.collectedFee
  setProcessData v.pid tagCollectedFee (toBytes (total + fee))
  within body

end Vault

namespace World

variable (v : Vault) (w : World Acc Ev)

def balance (addr : Address) : Int := ofBytes (w.accountData addr v.pid Vault.tagBalance)

def setBalance (addr : Address) (am : Int) : World Acc Ev :=
  w.setAccountData addr v.pid Vault.tagBalance (toBytes am)

def collectedFee : Int := ofBytes (w.processData v.pid Vault.tagCollectedFee)

def setCollectedFee (am : Int) : World Acc Ev :=
  w.setProcessData v.pid Vault.tagCollectedFee (toBytes am)

def defaultFee : Int :=
  if (w.processData v.pid Vault.tagDefaultFee).length = 0 then coin / 10
  else ofBytes (w.processData v.pid Vault.tagDefaultFee)

def charged (sender : Address) : World Acc Ev :=
  (w.setBalance v sender (w.balance v sender - w.defaultFee v)).setCollectedFee v
    (w.collectedFee v + w.defaultFee v)

variable (addr : Address)

theorem balance_nonneg : 0 ≤ w.balance v addr := ofBytes_nonneg _

theorem collectedFee_nonneg : 0 ≤ w.collectedFee v := ofBytes_nonneg _

theorem defaultFee_nonneg : 0 ≤ w.defaultFee v := by
  unfold defaultFee
  split
  · decide
  · exact ofBytes_nonneg _

variable {w}

theorem balance_setBalance {am : Int} (nonneg : 0 ≤ am) (addr other : Address) :
    (w.setBalance v addr am).balance v other = if other = addr then am else w.balance v other := by
  unfold balance setBalance setAccountData
  dsimp only
  by_cases same : other = addr
  · rw [if_pos ⟨same, rfl, rfl⟩, if_pos same, ofBytes_toBytes_of_nonneg nonneg]
  · rw [if_neg (fun hit => same hit.1), if_neg same]

theorem collectedFee_setCollectedFee {am : Int} (nonneg : 0 ≤ am) :
    (w.setCollectedFee v am).collectedFee v = am := by
  unfold collectedFee setCollectedFee setProcessData
  dsimp only
  rw [if_pos ⟨rfl, rfl⟩, ofBytes_toBytes_of_nonneg nonneg]

@[simp] theorem balance_setCollectedFee (am : Int) (addr : Address) :
    (w.setCollectedFee v am).balance v addr = w.balance v addr := rfl

@[simp] theorem collectedFee_setBalance (am : Int) :
    (w.setBalance v addr am).collectedFee v = w.collectedFee v := rfl

end World

namespace Vault

section Exec

variable [Account Acc] [Event Ev] [Base58] (v : Vault)
  (join : World Acc Ev → World Acc Ev → World Acc Ev) (w : World Acc Ev) (next : Unit → Prog Acc Ev)
  (addr : Address)

@[simp] theorem exec_balance (next : Int → Prog Acc Ev) :
    (v.balance addr next).exec join w = (next (w.balance v addr)).exec join w := by
  simp [balance, World.balance]

@[simp] theorem exec_collectedFee (next : Int → Prog Acc Ev) :
    (v.collectedFee next).exec join w = (next (w.collectedFee v)).exec join w := by
  simp [collectedFee, World.collectedFee]

@[simp] theorem exec_getDefaultFee (next : Int → Prog Acc Ev) :
    (v.getDefaultFee next).exec join w = (next (w.defaultFee v)).exec join w := by
  simp [getDefaultFee, World.defaultFee]

theorem exec_addBalance {am : Int} (nonneg : 0 ≤ am) (addr : Address) :
    (v.addBalance addr am next).exec join w =
      (next ()).exec join (w.setBalance v addr (w.balance v addr + am)) := by
  simp [addBalance, not_lt.mpr nonneg, World.setBalance]

/-- A balance that becomes zero is removed, which is how zero is stored. -/
theorem exec_subBalance (am : Int) :
    (v.subBalance addr am next).exec join w =
      if w.balance v addr < am then (.error .minusBalance, w)
      else (next ()).exec join (w.setBalance v addr (w.balance v addr - am)) := by
  simp only [subBalance, Script.bind_apply, exec_balance]
  split
  · rfl
  · split
    · rename_i zero
      rw [zero]
      rfl
    · rfl

theorem exec_addCollectedFee {am : Int} (nonneg : 0 ≤ am) :
    (v.addCollectedFee am next).exec join w =
      (next ()).exec join (w.setCollectedFee v (w.collectedFee v + am)) := by
  simp [addCollectedFee, not_lt.mpr nonneg, World.setCollectedFee]

variable (sender : Address)

theorem exec_withFee (body : Script Acc Ev Unit) :
    (v.withFee sender body next).exec join w =
      if w.balance v sender < w.defaultFee v then (.error .minusBalance, w)
      else (Script.within body next).exec join (w.charged v sender) := by
  simp only [withFee, Script.bind_apply, exec_getDefaultFee, exec_subBalance, exec_collectedFee]
  rfl

open Script in
theorem checkFeePayableWith_asks (am : Option Int) :
    (v.checkFeePayableWith sender am : Script Acc Ev (Except Err Unit)).Asks join
      fun _ => True := by
  intro w w' next done
  simp only [checkFeePayableWith, bind_apply, exec_hasAccount] at done
  cases has : w.hasAccount sender with
  | error err =>
    rw [has] at done
    exact ⟨trivial, _, done⟩
  | ok has' =>
    rw [has] at done
    cases has' with
    | false => exact ⟨trivial, _, done⟩
    | true =>
      exact ⟨trivial, _, done⟩

end Exec

variable [Account Acc] [Event Ev] [Base58] {v : Vault}
  {join : World Acc Ev → World Acc Ev → World Acc Ev} {rel : World Acc Ev → World Acc Ev → Prop}
  {addr : Address}

theorem subBalance_does (related : ∀ w am, rel w (w.setBalance v addr am))
    (am : Int) : (v.subBalance addr am : Script Acc Ev Unit).Does join rel := by
  intro w w' next done
  rw [exec_subBalance] at done
  split at done
  · cases done
  · exact ⟨(), _, related w _, done⟩

theorem addBalance_does (related : ∀ w am, rel w (w.setBalance v addr am))
    (am : Int) : (v.addBalance addr am : Script Acc Ev Unit).Does join rel := by
  intro w w' next done
  by_cases minus : am < 0
  · simp [addBalance, minus] at done
  · rw [exec_addBalance v _ w next (not_lt.mp minus)] at done
    exact ⟨(), _, related w _, done⟩

theorem withFee_does [IsTrans _ rel] {sender : Address} (charged : ∀ w, rel w (w.charged v sender))
    (merges : ∀ w inner, rel w.snapshot inner → rel w (join w inner)) {body : Script Acc Ev Unit}
    (does : body.Does join rel) : (v.withFee sender body).Does join rel := by
  intro w w' next done
  rw [exec_withFee] at done
  split at done
  · cases done
  · obtain ⟨result, mid, related, done⟩ := does.within merges _ _ next done
    exact ⟨result, mid, IsTrans.trans _ _ _ (charged w) related, done⟩

end Vault

end Fleta
