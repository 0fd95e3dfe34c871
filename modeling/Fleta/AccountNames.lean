import Fleta.ContextCommit
import Fleta.TransactionStep

/-!
# No registered name reads as an address

`HasAccountName` of a store refuses a name that parses as an address, `AddressByName`
does not. The two agree on a database in which no such name is registered: `CreateAccount`
refuses it.
-/

namespace Fleta

variable {Acc : Type} [Account Acc] [Base58]

/-- The account is not named like an address. -/
def PlainNamed (acc : Acc) : Prop := (Address.parse (Account.name acc)).isOk = false

structure Database.WellNamed (Acc : Type) [Account Acc] [AccountCodec Acc] [Base58]
    (db : Database) : Prop where
  registered : ∀ name, (db.get (Database.toAccountNameKey name)).isSome →
    (Address.parse name).isOk = false
  accounts : ∀ addr (acc : Acc), db.account addr = .ok acc → PlainNamed acc

theorem Database.WellNamed.names [AccountCodec Acc] [TxOutCodec] {db : Database}
    (named : db.WellNamed Acc) (status : Database.Status) :
    (db.toLoader status : Loader Acc).NamesCoherent := by
  intro name addr found
  change db.addressByName name = .ok addr at found
  change db.hasAccountName name = .ok true
  unfold Database.addressByName at found
  unfold Database.hasAccountName
  cases held : db.get (Database.toAccountNameKey name) with
  | none => simp [held] at found
  | some value =>
    have plain := named.registered name (by simp [held])
    rw [held] at found
    rw [plain, if_neg Bool.false_ne_true]
    dsimp only at found ⊢
    cases stored : db.get (Database.toAccountKey (Database.addressOf value)) with
    | none => simp [stored] at found
    | some encoded =>
      rw [stored] at found
      by_cases deleted : encoded = [0]
      · simp [deleted] at found
      · simp [deleted]

end Fleta
