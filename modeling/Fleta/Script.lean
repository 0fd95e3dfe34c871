import Fleta.Program

/-!
# Scripts

The body of a transaction or a hook is written as a script: a program with a result,
which a failing operation leaves with an error. `within` runs a script in a snapshot of
its own, as the source does with a closure.
-/

namespace Fleta

variable {Acc Ev α β : Type}

/-- A program that still lacks what is done with its result. -/
def Script (Acc Ev α : Type) : Type := (α → Prog Acc Ev) → Prog Acc Ev

namespace Script

instance : Monad (Script Acc Ev) where
  pure result := fun next => next result
  bind script rest := fun next => script fun result => rest result next

def fail (err : Err) : Script Acc Ev α := fun _ => Prog.done (.error err)

def check : Except Err α → Script Acc Ev α
  | .ok result => pure result
  | .error err => fail err

def env : Script Acc Ev Env := Prog.env

def account (addr : Address) : Script Acc Ev (Except Err Acc) := Prog.account addr

/-- The account is changed through the pointer that its read returned. -/
def updateAccount (addr : Address) (change : Acc → Acc) : Script Acc Ev (Except Err Acc) :=
  Prog.updateAccount addr change

def hasAccount (addr : Address) : Script Acc Ev (Except Err Bool) := Prog.hasAccount addr

def hasAccountName (name : Bytes) : Script Acc Ev (Except Err Bool) := Prog.hasAccountName name

def createAccount (acc : Acc) : Script Acc Ev (Except Err Unit) := Prog.createAccount acc

def createAccountIgnoreDelete (acc : Acc) : Script Acc Ev (Except Err Unit) :=
  Prog.createAccountIgnoreDelete acc

def deleteAccount (acc : Acc) : Script Acc Ev (Except Err Unit) := Prog.deleteAccount acc

def accountData (addr : Address) (pid : UInt8) (name : Bytes) : Script Acc Ev Bytes :=
  Prog.accountData addr pid name

def setAccountData (addr : Address) (pid : UInt8) (name value : Bytes) : Script Acc Ev Unit :=
  fun next => Prog.setAccountData addr pid name value (next ())

def processData (pid : UInt8) (name : Bytes) : Script Acc Ev Bytes := Prog.processData pid name

def setProcessData (pid : UInt8) (name value : Bytes) : Script Acc Ev Unit :=
  fun next => Prog.setProcessData pid name value (next ())

def emitEvent (event : Ev) : Script Acc Ev Unit := fun next => Prog.emitEvent event (next ())

def toProg (script : Script Acc Ev Unit) : Prog Acc Ev := script fun _ => Prog.done (.ok ())

def within (body : Script Acc Ev Unit) : Script Acc Ev Unit := fun next =>
  Prog.within body.toProg fun
    | .ok _ => next ()
    | .error err => Prog.done (.error err)

def each (items : List α) (body : α → Script Acc Ev Unit) : Script Acc Ev Unit :=
  match items with
  | [] => pure ()
  | item :: rest => do
      body item
      each rest body

end Script

end Fleta
