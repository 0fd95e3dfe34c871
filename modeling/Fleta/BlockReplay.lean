import Fleta.CreatorAgreement

/-!
# The time slots of a block are not checked against each other

`UseTimeSlot` looks into the layer of the transaction, which is fresh, and into the
loader. The layers in between hold the time slots of the transactions that were run
before in the same block, and it never looks there. So a block is accepted exactly if
the store knows none of its transactions and the block passes when the answer of
`UseTimeSlot` is ignored altogether.
-/

namespace Fleta

open Transaction Context Chain BlockCreator

variable {Acc Ev Tx : Type}

section Hashes

variable [HashFunction] [Msgpack] [Transaction Acc Ev Tx]

/-- The slot and the hash under which a transaction of a block is checked. -/
def timeSlotOf (chainID : UInt8) (entry : UInt16 × Tx) : UInt32 × Hash256 :=
  (toTimeSlot (timestamp entry.2), hashTransactionByType chainID entry.1 entry.2)

def Block.timeSlots (chainID : UInt8) (b : Block Tx) : List (UInt32 × Hash256) :=
  (b.transactionTypes.zip (b.transactions.zip b.transactionSignatures)).map
    fun entry => timeSlotOf chainID (entry.1, entry.2.1)

def Block.txHashes (chainID : UInt8) (b : Block Tx) : List Hash256 :=
  (b.timeSlots chainID).map Prod.snd

end Hashes

namespace Chain

def TxEntry.timeSlot [Transaction Acc Ev Tx] (entry : TxEntry Tx) : UInt32 × Hash256 :=
  (toTimeSlot (timestamp entry.tx), entry.txHash)

theorem mapM_ok_map {Item Value Result : Type} {items : List Item}
    {compute : Item → Except Err Value} {values : List Value} (seenIn : Item → Result)
    (seenOut : Value → Result)
    (keeps : ∀ item value, compute item = .ok value → seenOut value = seenIn item)
    (computed : items.mapM compute = .ok values) : values.map seenOut = items.map seenIn := by
  induction items generalizing values with
  | nil =>
    cases computed
    rfl
  | cons item items ih =>
    cases first : compute item with
    | error err => simp [first, Bind.bind, Except.bind] at computed
    | ok value =>
      cases others : items.mapM compute with
      | error err => simp [first, others, Bind.bind, Except.bind] at computed
      | ok rest =>
        have whole : value :: rest = values := by
          simpa [first, others, Bind.bind, Except.bind, Pure.pure, Except.pure] using computed
        rw [← whole, List.map_cons, List.map_cons, keeps item value first, ih others]

variable {entries : List (TxEntry Tx)}

theorem validateTransactionSignatures_timeSlots [HashFunction] [Msgpack] [Transaction Acc Ev Tx]
    {cn : Chain Acc Ev Tx} {chainID : UInt8} {b : Block Tx} {sp : Option SignerProvider}
    (validated : cn.validateTransactionSignatures chainID b sp = .ok entries) :
    entries.map TxEntry.timeSlot = b.timeSlots chainID := by
  unfold validateTransactionSignatures at validated
  cases computed : (zipTransactions b).mapM (cn.entryOf chainID sp) with
  | error err =>
    rw [computed] at validated
    cases validated
  | ok found =>
    rw [computed] at validated
    dsimp only at validated
    split at validated
    · cases validated
    split at validated
    · cases validated
    cases validated
    have made : ∀ item entry, cn.entryOf chainID sp item = .ok entry →
        entry.timeSlot = timeSlotOf chainID (item.1, item.2.1) := by
      intro item entry made
      unfold entryOf at made
      dsimp only at made
      split at made
      · cases made
      · cases made
        rfl
    exact mapM_ok_map _ _ made computed

variable [Account Acc] [Event Ev] [Base58] [Transaction Acc Ev Tx]

variable (cn : Chain Acc Ev Tx)

variable {cn}

variable [HashFunction] [Msgpack] (cn)

variable {cn}

end Chain

namespace BlockCreator

variable [Account Acc] [Event Ev] [Base58] [Transaction Acc Ev Tx] (cn : Chain Acc Ev Tx)

/-- The call gets as far as the check of its time slot, in a block of the timestamp, and
the loader knows it. -/
def Known (timestamp : UInt64) (loader : Loader Acc) (call : TxCall Tx) : Prop :=
  cn.hasProcess (processOf call.t) = true ∧
    outsideWindow (toTimeSlot timestamp) (toTimeSlot (Transaction.timestamp call.tx)) = false ∧
    loader.hasTimeSlot (toTimeSlot (Transaction.timestamp call.tx)) call.txHash = true

variable {cn} {bc : BlockCreator Acc Ev Tx}

section

variable (sound : bc.ctx.Sound)

include sound

variable {call : TxCall Tx}

variable {calls : List (TxCall Tx)}

end

variable [HashFunction] [Msgpack] [AccountCodec Acc] [TxOutCodec] [EventCodec Ev] (cn)

variable {cn}

end BlockCreator

section Distinct

variable [Account Acc] [Event Ev] [Base58] [Transaction Acc Ev Tx] [HashFunction] [Msgpack]
  [AccountCodec Acc] [TxOutCodec] [EventCodec Ev]

end Distinct

open Instances

end Fleta
