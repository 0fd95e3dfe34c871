import Fleta.Script

/-!
# Key-value states

The state as a program sees it, without the layers of a context: an account or a status
under every address, an address under every name, and a text under every data key, where
the empty text is an absent value. Of the layer in which a program works only the marks
of the keys that were emptied in it are left.

A snapshot is always undone exactly. How it is merged is a parameter: exactly, or as
`Commit` does it, where a key that was emptied before the snapshot stays empty.
-/

namespace Fleta

variable {Acc Ev α : Type}

/-- What a state knows of an address. An account deleted in the block that is built is
answered otherwise than one that was deleted before. -/
inductive Standing (Acc : Type) where
  | absent
  | dropped
  | deleted
  | present (acc : Acc)

structure World (Acc Ev : Type) where
  env : Env
  standing : Address → Standing Acc
  names : Bytes → Option Address
  accountData : Address → UInt8 → Bytes → Bytes
  processData : UInt8 → Bytes → Bytes
  events : List Ev
  emptied : Address → UInt8 → Bytes → Bool
  emptiedProcess : UInt8 → Bytes → Bool

namespace World

def account (addr : Address) (w : World Acc Ev) : Except Err Acc :=
  match w.standing addr with
  | .absent => .error .notExistAccount
  | .dropped => .error .deletedAccount
  | .deleted => .error .deletedAccount
  | .present acc => .ok acc

def hasAccount (addr : Address) (w : World Acc Ev) : Except Err Bool :=
  match w.standing addr with
  | .absent => .ok false
  | .dropped => .ok false
  | .deleted => .error .deletedAccount
  | .present _ => .ok true

def addressByName (name : Bytes) (w : World Acc Ev) : Except Err Address :=
  match w.names name with
  | some addr => .ok addr
  | none => .error .notExistAccount

def hasAccountName (name : Bytes) (w : World Acc Ev) : Except Err Bool :=
  .ok (w.names name).isSome

def stand (addr : Address) (standing : Standing Acc) (w : World Acc Ev) : World Acc Ev :=
  { w with standing := Function.update w.standing addr standing }

def updateAccount (addr : Address) (change : Acc → Acc) (w : World Acc Ev) : World Acc Ev :=
  match w.standing addr with
  | .present acc => w.stand addr (.present (change acc))
  | _ => w

section UpdateAccount

variable (w : World Acc Ev) (addr : Address) (change : Acc → Acc)

@[simp] theorem updateAccount_env : (w.updateAccount addr change).env = w.env := by
  unfold updateAccount
  split <;> rfl

@[simp] theorem updateAccount_accountData :
    (w.updateAccount addr change).accountData = w.accountData := by
  unfold updateAccount
  split <;> rfl

@[simp] theorem updateAccount_processData :
    (w.updateAccount addr change).processData = w.processData := by
  unfold updateAccount
  split <;> rfl

variable {w addr change}

theorem updateAccount_standing {other : World Acc Ev} (same : other.standing = w.standing) :
    (other.updateAccount addr change).standing = (w.updateAccount addr change).standing := by
  unfold updateAccount
  rw [same]
  split
  · simp [stand, same]
  · exact same

theorem updateAccount_present {a : Address} {acc : Acc} (present : w.standing a = .present acc) :
    ∃ acc', (w.updateAccount addr change).standing a = .present acc' := by
  unfold updateAccount
  split
  · by_cases here : a = addr
    · subst here
      exact ⟨_, Function.update_self _ _ _⟩
    · exact ⟨acc, by simp [stand, here, present]⟩
  · exact ⟨acc, present⟩

end UpdateAccount

/-- An account deleted in this block stays deleted, whatever is inserted. -/
def insertAccount [Account Acc] [Base58] (tolerated : Err → Bool) (acc : Acc)
    (w : World Acc Ev) : Except Err Unit × World Acc Ev :=
  let addr := Account.address acc
  let name := Account.name acc
  if addr.height ≠ w.env.targetHeight then (.error .invalidAddressHeight, w)
  else if addr = .zero then (.error .notAllowedEmptyAddressAccount, w)
  else if (Address.parse name).isOk then (.error .notAllowedAddressAccountName, w)
  else match Context.refusal tolerated .existAccount (w.hasAccount addr) with
    | some err => (.error err, w)
    | none =>
      match Context.refusal tolerated .existAccountName (w.hasAccountName name) with
      | some err => (.error err, w)
      | none =>
        let standing := match w.standing addr with
          | .dropped => .dropped
          | _ => .present acc
        (.ok (), { w.stand addr standing with
          names := Function.update w.names name (some addr) })

def deleteAccount [Account Acc] (acc : Acc) (w : World Acc Ev) : Except Err Unit × World Acc Ev :=
  match w.account (Account.address acc) with
  | .error err => (.error err, w)
  | .ok _ =>
    (.ok (), { w.stand (Account.address acc) .dropped with
      names := Function.update w.names (Account.name acc) none })

def setAccountData (addr : Address) (pid : UInt8) (name value : Bytes) (w : World Acc Ev) :
    World Acc Ev :=
  { w with
    accountData := fun addr' pid' name' =>
      if addr' = addr ∧ pid' = pid ∧ name' = name then value else w.accountData addr' pid' name'
    emptied := fun addr' pid' name' =>
      if addr' = addr ∧ pid' = pid ∧ name' = name then value.isEmpty
      else w.emptied addr' pid' name' }

def setProcessData (pid : UInt8) (name value : Bytes) (w : World Acc Ev) : World Acc Ev :=
  { w with
    processData := fun pid' name' =>
      if pid' = pid ∧ name' = name then value else w.processData pid' name'
    emptiedProcess := fun pid' name' =>
      if pid' = pid ∧ name' = name then value.isEmpty else w.emptiedProcess pid' name' }

def emitEvent [Event Ev] (event : Ev) (w : World Acc Ev) : World Acc Ev :=
  { w with events := w.events ++ [Event.setN (UInt16.ofNat w.events.length) event] }

def snapshot (w : World Acc Ev) : World Acc Ev :=
  { w with emptied := fun _ _ _ => false, emptiedProcess := fun _ _ => false }

def merge (outer inner : World Acc Ev) : World Acc Ev :=
  { inner with
    emptied := fun addr pid name =>
      (inner.accountData addr pid name).isEmpty &&
        (outer.emptied addr pid name || inner.emptied addr pid name)
    emptiedProcess := fun pid name =>
      (inner.processData pid name).isEmpty &&
        (outer.emptiedProcess pid name || inner.emptiedProcess pid name) }

/-- The merge of `Commit`: the marks of the outer layer stay, and hide what was written. -/
def commit (outer inner : World Acc Ev) : World Acc Ev :=
  { inner with
    accountData := fun addr pid name =>
      if outer.emptied addr pid name then [] else inner.accountData addr pid name
    processData := fun pid name =>
      if outer.emptiedProcess pid name then [] else inner.processData pid name
    emptied := fun addr pid name => outer.emptied addr pid name || inner.emptied addr pid name
    emptiedProcess := fun pid name =>
      outer.emptiedProcess pid name || inner.emptiedProcess pid name }

end World

section Exec

variable [Account Acc] [Event Ev] [Base58] (join : World Acc Ev → World Acc Ev → World Acc Ev)

/-- A program over a key-value state whose snapshots are merged by `join`. -/
def Prog.exec : Prog Acc Ev → World Acc Ev → Except Err Unit × World Acc Ev
  | done result, w => (result, w)
  | env next, w => exec (next w.env) w
  | account addr next, w => exec (next (w.account addr)) w
  | updateAccount addr change next, w =>
    exec (next (w.account addr)) (w.updateAccount addr change)
  | hasAccount addr next, w => exec (next (w.hasAccount addr)) w
  | addressByName name next, w => exec (next (w.addressByName name)) w
  | hasAccountName name next, w => exec (next (w.hasAccountName name)) w
  | createAccount acc next, w =>
    let (result, w) := w.insertAccount (fun err => err == .notExistAccount) acc
    exec (next result) w
  | createAccountIgnoreDelete acc next, w =>
    let (result, w) :=
      w.insertAccount (fun err => err == .notExistAccount || err == .deletedAccount) acc
    exec (next result) w
  | deleteAccount acc next, w =>
    let (result, w) := w.deleteAccount acc
    exec (next result) w
  | accountData addr pid name next, w => exec (next (w.accountData addr pid name)) w
  | setAccountData addr pid name value next, w => exec next (w.setAccountData addr pid name value)
  | processData pid name next, w => exec (next (w.processData pid name)) w
  | setProcessData pid name value next, w => exec next (w.setProcessData pid name value)
  | emitEvent event next, w => exec next (w.emitEvent event)
  | within body next, w =>
    match exec body w.snapshot with
    | (.ok result, w') => exec (next (.ok result)) (join w w')
    | (.error err, _) => exec (next (.error err)) w

namespace Script

variable {β : Type} (w : World Acc Ev)

omit [Account Acc] [Event Ev] [Base58] in
@[simp] theorem bind_apply (script : Script Acc Ev α) (rest : α → Script Acc Ev β)
    (next : β → Prog Acc Ev) : (script >>= rest) next = script fun result => rest result next := rfl

omit [Account Acc] [Event Ev] [Base58] in
@[simp] theorem pure_apply (result : α) (next : α → Prog Acc Ev) :
    (pure result : Script Acc Ev α) next = next result := rfl

@[simp] theorem exec_fail (err : Err) (next : α → Prog Acc Ev) :
    (fail err next).exec join w = (.error err, w) := rfl

@[simp] theorem exec_done (result : Except Err Unit) :
    (Prog.done result : Prog Acc Ev).exec join w = (result, w) := rfl

@[simp] theorem exec_env (next : Env → Prog Acc Ev) : (env next).exec join w = (next w.env).exec join w := rfl

section

variable (addr : Address)

include addr

@[simp] theorem exec_account (next : Except Err Acc → Prog Acc Ev) :
    (account addr next).exec join w = (next (w.account addr)).exec join w := rfl

@[simp] theorem exec_updateAccount (change : Acc → Acc) (next : Except Err Acc → Prog Acc Ev) :
    (updateAccount addr change next).exec join w =
      (next (w.account addr)).exec join (w.updateAccount addr change) := rfl

@[simp] theorem exec_hasAccount (next : Except Err Bool → Prog Acc Ev) :
    (hasAccount addr next).exec join w = (next (w.hasAccount addr)).exec join w := rfl

@[simp] theorem exec_accountData (pid : UInt8) (name : Bytes) (next : Bytes → Prog Acc Ev) :
    (accountData addr pid name next).exec join w = (next (w.accountData addr pid name)).exec join w := rfl

@[simp] theorem exec_setAccountData (pid : UInt8) (name value : Bytes) (next : Unit → Prog Acc Ev) :
    (setAccountData addr pid name value next).exec join w =
      (next ()).exec join (w.setAccountData addr pid name value) := rfl

end

@[simp] theorem exec_processData (pid : UInt8) (name : Bytes) (next : Bytes → Prog Acc Ev) :
    (processData pid name next).exec join w = (next (w.processData pid name)).exec join w := rfl

@[simp] theorem exec_setProcessData (pid : UInt8) (name value : Bytes) (next : Unit → Prog Acc Ev) :
    (setProcessData pid name value next).exec join w =
      (next ()).exec join (w.setProcessData pid name value) := rfl

@[simp] theorem exec_emitEvent (event : Ev) (next : Unit → Prog Acc Ev) :
    (emitEvent event next).exec join w = (next ()).exec join (w.emitEvent event) := rfl

@[simp] theorem exec_deleteAccount (acc : Acc) (next : Except Err Unit → Prog Acc Ev) :
    (deleteAccount acc next).exec join w =
      (next (w.deleteAccount acc).1).exec join (w.deleteAccount acc).2 := rfl

theorem exec_within (body : Script Acc Ev Unit) (next : Unit → Prog Acc Ev) :
    (within body next).exec join w =
      match body.toProg.exec join w.snapshot with
      | (.ok _, w') => (next ()).exec join (join w w')
      | (.error err, _) => (.error err, w) := by
  rw [within, Prog.exec]
  rcases body.toProg.exec join w.snapshot with ⟨result, w'⟩
  cases result <;> rfl

variable {join w}

omit [Account Acc] [Event Ev] [Base58] in
theorem exists_passed {outcome : Except Err Unit × World Acc Ev} {post : World Acc Ev → Prop}
    (passed : outcome.1 = .ok ()) (holds : ∀ w', outcome = (.ok (), w') → post w') :
    ∃ w', outcome = (.ok (), w') ∧ post w' :=
  have ran : outcome = (.ok (), outcome.2) := Prod.ext passed rfl
  ⟨_, ran, holds _ ran⟩

theorem within_ok {body : Script Acc Ev Unit} {next : Unit → Prog Acc Ev} {w' : World Acc Ev}
    (done : (within body next).exec join w = (.ok (), w')) :
    ∃ inner, body.toProg.exec join w.snapshot = (.ok (), inner) ∧
      (next ()).exec join (join w inner) = (.ok (), w') := by
  rw [exec_within] at done
  rcases ran : body.toProg.exec join w.snapshot with ⟨result, inner⟩
  rw [ran] at done
  cases result with
  | error err => cases done
  | ok => exact ⟨inner, rfl, done⟩

end Script

namespace World

variable {w : World Acc Ev}

omit [Account Acc] [Event Ev] [Base58] in
theorem account_ok {addr : Address} {acc : Acc}
    (found : w.account addr = .ok acc) : w.standing addr = .present acc := by
  unfold account at found
  split at found
  · cases found
  · cases found
  · cases found
  · rename_i present
    rw [present, Except.ok.inj found]

omit [Event Ev] [Base58] in
theorem deleteAccount_present {acc found : Acc}
    (present : w.standing (Account.address acc) = .present found) :
    w.deleteAccount acc =
      (.ok (), { w.stand (Account.address acc) .dropped with
        names := Function.update w.names (Account.name acc) none }) := by
  simp only [deleteAccount, account, present]

def transact (script : Script Acc Ev Unit) (w : World Acc Ev) : Option (World Acc Ev) :=
  match script.toProg.exec World.commit w.snapshot with
  | (.ok _, inner) => some (w.commit inner)
  | (.error _, _) => none

theorem transact_eq_some {script : Script Acc Ev Unit} {w w' : World Acc Ev} :
    w.transact script = some w' ↔
      ∃ inner, script.toProg.exec World.commit w.snapshot = (.ok (), inner) ∧
        w.commit inner = w' := by
  unfold transact
  rcases script.toProg.exec World.commit w.snapshot with ⟨result, inner⟩
  cases result with
  | error err => simp
  | ok => simp

end World

end Exec

def World.nextBlock (env : Env) (w : World Acc Ev) : World Acc Ev :=
  { w.snapshot with
    env := env
    standing := fun addr =>
      match w.standing addr with
      | .dropped => .deleted
      | standing => standing
    events := [] }

end Fleta
