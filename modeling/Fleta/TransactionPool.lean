import Fleta.CreatorAgreement
import Fleta.SignatureWorkers

/-!
# The transaction pool

The pool keeps its transactions in one queue for every time slot, and by their hash in a map
that also serves as the cache of signers for the check of a block. `addTx` of a formulator is
the only way into the pool. It recovers the signers itself, so the cache answers what the
check would compute.
-/

namespace Fleta

variable {Acc Ev Tx Item : Type}

/-- A queue whose items can be removed by their key. `Remove` leaves the key in the map. -/
structure LinkedQueue (Item : Type) where
  items : List (Hash256 × Item)
  keyMap : SortedMap Hash256 Item

namespace LinkedQueue

def new : LinkedQueue Item := ⟨[], .empty⟩

def push (key : Hash256) (item : Item) (q : LinkedQueue Item) : Bool × LinkedQueue Item :=
  if q.keyMap.has key then (false, q)
  else (true, ⟨q.items ++ [(key, item)], q.keyMap.put key item⟩)

def pop (q : LinkedQueue Item) : Option Item × LinkedQueue Item :=
  match q.items with
  | [] => (none, q)
  | (key, item) :: rest => (some item, ⟨rest, q.keyMap.delete key⟩)

def remove (key : Hash256) (q : LinkedQueue Item) : Option Item × LinkedQueue Item :=
  if q.items = [] then (none, q)
  else match q.keyMap.get key with
    | none => (none, q)
    | some item => (some item, { q with items := q.items.filter fun entry => entry.1 ≠ key })

end LinkedQueue

/-- The signatures are `none` where the source has a nil slice. -/
structure PoolItem (Tx : Type) where
  txType : UInt16
  txHash : Hash256
  transaction : Tx
  signatures : Option (List Signature)
  signers : List PublicHash

structure TransactionPool (Tx : Type) where
  slotMap : SortedMap UInt32 (LinkedQueue (PoolItem Tx))
  txhashMap : SortedMap Hash256 (PoolItem Tx)

namespace TransactionPool

def new : TransactionPool Tx := ⟨.empty, .empty⟩

def isExist (txHash : Hash256) (tp : TransactionPool Tx) : Bool := tp.txhashMap.has txHash

def unsafeGetSigners (tp : TransactionPool Tx) : SignerProvider := fun txHash =>
  match tp.txhashMap.get txHash with
  | none => (none, none)
  | some item => (item.signatures, some item.signers)

section Slots

variable [Transaction Acc Ev Tx]

def push (item : PoolItem Tx) (tp : TransactionPool Tx) : Except Err Unit × TransactionPool Tx :=
  if tp.txhashMap.has item.txHash then (.error .existTransaction, tp)
  else
    let slot := toTimeSlot (Transaction.timestamp item.transaction)
    let q := (tp.slotMap.get slot).getD .new
    (.ok (), ⟨tp.slotMap.put slot (q.push item.txHash item).2, tp.txhashMap.put item.txHash item⟩)

def remove (txHash : Hash256) (tx : Tx) (tp : TransactionPool Tx) : TransactionPool Tx :=
  let slot := toTimeSlot (Transaction.timestamp tx)
  match tp.slotMap.get slot with
  | none => tp
  | some q => ⟨tp.slotMap.put slot (q.remove txHash).2, tp.txhashMap.delete txHash⟩

end Slots

def cleanSlot (tp : TransactionPool Tx) (slot : UInt32) (q : LinkedQueue (PoolItem Tx)) :
    TransactionPool Tx :=
  ⟨tp.slotMap.delete slot, q.items.foldl (fun map entry => map.delete entry.1) tp.txhashMap⟩

/-- The source goes through the slots in the order of a Go map; the transactions are returned
here by their slots. -/
def clean (currentSlot : UInt32) (tp : TransactionPool Tx) : List Tx × TransactionPool Tx :=
  let deletes := tp.slotMap.eachAll.filter fun entry => entry.1 < currentSlot - 1
  (deletes.flatMap fun entry => entry.2.items.map fun item => item.2.transaction,
    deletes.foldl (fun tp entry => tp.cleanSlot entry.1 entry.2) tp)

/-- A popped transaction stays in the map of the hashes. -/
def popSlot (slot : UInt32) (q : LinkedQueue (PoolItem Tx)) (tp : TransactionPool Tx) :
    Option (PoolItem Tx) × TransactionPool Tx :=
  (q.pop.1, { tp with slotMap := tp.slotMap.put slot q.pop.2 })

def unsafePop (currentSlot : UInt32) (tp : TransactionPool Tx) :
    Option (PoolItem Tx) × TransactionPool Tx :=
  match tp.slotMap.get (currentSlot - 1) with
  | some q => tp.popSlot (currentSlot - 1) q
  | none =>
    match tp.slotMap.get currentSlot with
    | some q => tp.popSlot currentSlot q
    | none => (none, tp)

/-- `addTx` of a formulator, with the context that the transaction is validated on. -/
def addTx [Account Acc] [Event Ev] [Base58] [Transaction Acc Ev Tx] (cn : Chain Acc Ev Tx)
    (ctx : Context Acc Ev) (txHash : Hash256) (t : UInt16) (tx : Tx)
    (sigs : Option (List Signature)) (tp : TransactionPool Tx) :
    Except Err Unit × TransactionPool Tx :=
  if tp.isExist txHash then (.error .existTransaction, tp)
  else
    match (sigs.getD []).mapM (cn.recoverPublicHash txHash) with
    | .error err => (.error err, tp)
    | .ok signers =>
      if !cn.hasProcess (processOf t) then (.error .notExistProcess, tp)
      else
        match ((Transaction.validate tx (processOf t) signers).run ctx).1 with
        | .error err => (.error err, tp)
        | .ok _ => tp.push ⟨t, txHash, tx, sigs, signers⟩

end TransactionPool

/-- What a formulator does with its pool. -/
inductive PoolOp (Acc Ev Tx : Type) where
  | addTx (ctx : Context Acc Ev) (txHash : Hash256) (t : UInt16) (tx : Tx)
      (sigs : Option (List Signature))
  | remove (txHash : Hash256) (tx : Tx)
  | clean (currentSlot : UInt32)
  | pop (currentSlot : UInt32)

namespace PoolOp

variable [Account Acc] [Event Ev] [Base58] [Transaction Acc Ev Tx] (cn : Chain Acc Ev Tx)

def apply (tp : TransactionPool Tx) : PoolOp Acc Ev Tx → TransactionPool Tx
  | addTx ctx txHash t tx sigs => (tp.addTx cn ctx txHash t tx sigs).2
  | remove txHash tx => tp.remove txHash tx
  | clean currentSlot => (tp.clean currentSlot).2
  | pop currentSlot => (tp.unsafePop currentSlot).2

def run (ops : List (PoolOp Acc Ev Tx)) : TransactionPool Tx := ops.foldl (apply cn) .new

end PoolOp

namespace TransactionPool

def Recovered (cn : Chain Acc Ev Tx) (tp : TransactionPool Tx) : Prop :=
  ∀ txHash item, tp.txhashMap.get txHash = some item →
    (item.signatures.getD []).mapM (cn.recoverPublicHash txHash) = .ok item.signers

def Within (tp tp' : TransactionPool Tx) : Prop :=
  ∀ txHash item, tp'.txhashMap.get txHash = some item → tp.txhashMap.get txHash = some item

variable {cn : Chain Acc Ev Tx} {tp tp' : TransactionPool Tx}

theorem Recovered.within (recovered : tp.Recovered cn) (within : tp.Within tp') :
    tp'.Recovered cn :=
  fun txHash item held => recovered txHash item (within txHash item held)

theorem within_cleanSlot (slot : UInt32) (q : LinkedQueue (PoolItem Tx)) :
    tp.Within (tp.cleanSlot slot q) := by
  unfold cleanSlot Within
  generalize tp.txhashMap = map
  induction q.items generalizing map with
  | nil => exact fun _ _ held => held
  | cons entry rest ih =>
    intro txHash item held
    exact SortedMap.get_of_get_delete (ih _ txHash item held)

variable (currentSlot : UInt32)

theorem within_clean : tp.Within (tp.clean currentSlot).2 := by
  unfold clean
  induction tp.slotMap.eachAll.filter (fun entry => entry.1 < currentSlot - 1) generalizing tp with
  | nil => exact fun _ _ held => held
  | cons entry rest ih =>
    intro txHash item held
    exact within_cleanSlot entry.1 entry.2 txHash item (ih txHash item held)

theorem within_unsafePop : tp.Within (tp.unsafePop currentSlot).2 := by
  unfold unsafePop
  split
  · exact fun _ _ held => held
  split <;> exact fun _ _ held => held

theorem within_remove [Transaction Acc Ev Tx] (txHash : Hash256) (tx : Tx) :
    tp.Within (tp.remove txHash tx) := by
  unfold remove
  dsimp only
  split
  · exact fun _ _ held => held
  · exact fun _ _ held => SortedMap.get_of_get_delete held

variable [Account Acc] [Event Ev] [Base58] [Transaction Acc Ev Tx]

theorem Recovered.addTx (recovered : tp.Recovered cn) (ctx : Context Acc Ev) (txHash : Hash256)
    (t : UInt16) (tx : Tx) (sigs : Option (List Signature)) :
    (tp.addTx cn ctx txHash t tx sigs).2.Recovered cn := by
  unfold TransactionPool.addTx
  split
  · exact recovered
  split
  · exact recovered
  rename_i signers own
  split
  · exact recovered
  split
  · exact recovered
  unfold push
  split
  · exact recovered
  exact SortedMap.forall_get_put recovered own

theorem Recovered.apply (recovered : tp.Recovered cn) (op : PoolOp Acc Ev Tx) :
    (op.apply cn tp).Recovered cn := by
  cases op with
  | addTx ctx txHash t tx sigs => exact recovered.addTx ctx txHash t tx sigs
  | remove txHash tx => exact recovered.within (within_remove txHash tx)
  | clean currentSlot => exact recovered.within (within_clean currentSlot)
  | pop currentSlot => exact recovered.within (within_unsafePop currentSlot)

theorem recovered_run (cn : Chain Acc Ev Tx) (ops : List (PoolOp Acc Ev Tx)) :
    (PoolOp.run cn ops).Recovered cn := by
  have start : (new : TransactionPool Tx).Recovered cn := by
    intro txHash item held
    cases held
  unfold PoolOp.run
  generalize (new : TransactionPool Tx) = tp at start ⊢
  induction ops generalizing tp with
  | nil => exact start
  | cons op rest ih => exact ih _ (start.apply op)

omit [Account Acc] [Event Ev] [Base58] [Transaction Acc Ev Tx] in
theorem Recovered.truthful (recovered : tp.Recovered cn) :
    BlockCreator.Truthful cn (some tp.unsafeGetSigners) := by
  intro provider given txHash sigs signers remembered
  cases given
  unfold unsafeGetSigners at remembered
  split at remembered
  · cases remembered
  · rename_i item held
    have own := recovered txHash item held
    rw [Prod.mk.injEq, Option.some.injEq] at remembered
    rwa [remembered.1, remembered.2] at own

/-- With the pool as the provider of signers, the check of the signatures has the same result
as with none, for one worker and for any number of them. -/
theorem signer_cache_transparent [HashFunction] [Msgpack] (cn : Chain Acc Ev Tx) (chainID : UInt8)
    (ops : List (PoolOp Acc Ev Tx)) :
    (∀ b, cn.validateTransactionSignatures chainID b (some (PoolOp.run cn ops).unsafeGetSigners) =
        cn.validateTransactionSignatures chainID b none) ∧
      ∀ first cpus txs,
        cn.entriesOn first cpus chainID (some (PoolOp.run cn ops).unsafeGetSigners) txs =
          cn.entriesOn first cpus chainID none txs := by
  have entries : cn.entryOf chainID (some (PoolOp.run cn ops).unsafeGetSigners) =
      cn.entryOf chainID none := by
    funext item
    unfold Chain.entryOf
    dsimp only
    rw [BlockCreator.signersOf_truthful (recovered_run cn ops).truthful]
    rfl
  constructor
  · intro b
    rw [Chain.validateTransactionSignatures, entries]
    rfl
  · intro first cpus txs
    rw [Chain.entriesOn, entries]
    rfl

end TransactionPool

end Fleta
