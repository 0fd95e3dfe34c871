import Fleta.Block

/-!
# Executing a block on a context

`executeBlockOnContext` runs the hooks of every process around the transactions of a
block. Each transaction runs in a snapshot of its own. The same body runs a transaction
for the validator of a block and for its creator.
-/

namespace Fleta

variable {Acc Ev Tx : Type}

/-- The parts of a block that a hook may use. -/
structure BlockView (Tx : Type) where
  height : UInt32
  generator : Address
  timestamp : UInt64
  transactionTypes : List UInt16
  transactions : List Tx
  transactionSignatures : List (List Signature)

def Block.view (b : Block Tx) : BlockView Tx where
  height := b.header.height
  generator := b.header.generator
  timestamp := b.header.timestamp
  transactionTypes := b.transactionTypes
  transactions := b.transactions
  transactionSignatures := b.transactionSignatures

/-- The hooks of a process or of the application. -/
structure Process (Acc Ev Tx : Type) where
  beforeExecuteTransactions : Prog Acc Ev
  afterExecuteTransactions : BlockView Tx → Prog Acc Ev
  onSaveData : BlockView Tx → Prog Acc Ev

/-- The signatures and signers a transaction pool remembers for a transaction hash. -/
abbrev SignerProvider := Hash256 → Option (List Signature) × Option (List PublicHash)

/-- The processes in the order they were added, each with its id, the application, and
the public hash recovered from a signature. -/
structure Chain (Acc Ev Tx : Type) where
  processes : List (UInt8 × Process Acc Ev Tx)
  app : Process Acc Ev Tx
  recoverPublicHash : Hash256 → Signature → Except Err PublicHash

namespace Chain

variable (cn : Chain Acc Ev Tx)

def hooks (hook : Process Acc Ev Tx → Prog Acc Ev) : List (Prog Acc Ev) :=
  cn.processes.map (fun entry => hook entry.2) ++ [hook cn.app]

def hasProcess (id : UInt8) : Bool := id == 255 || cn.processes.any fun entry => entry.1 == id

section Execute

variable [Account Acc] [Event Ev] [Base58]

/-- Every hook must succeed and leave a single layer. -/
def runHooks : List (Prog Acc Ev) → Context Acc Ev → Except Err Unit × Context Acc Ev
  | [], ctx => (.ok (), ctx)
  | hook :: rest, ctx =>
    match hook.run ctx with
    | (.error err, ctx) => (.error err, ctx)
    | (.ok _, ctx) =>
      if ctx.stackSize > 1 then (.error .dirtyContext, ctx) else runHooks rest ctx

variable [Transaction Acc Ev Tx]

/-- `slot < currentSlot-1` or `slot > currentSlot` in 32-bit arithmetic. -/
def outsideWindow (currentSlot slot : UInt32) : Bool :=
  decide (slot < currentSlot - 1) || decide (slot > currentSlot)

def generatorKept : Except Err Bool → Except Err Unit
  | .error err => if err = .deletedAccount then .error .cannotDeleteGeneratorAccount else .error err
  | .ok true => .ok ()
  | .ok false => .error .cannotDeleteGeneratorAccount

def runTransaction (generator : Address) (pid : UInt8) (tx : Tx) (signers : List PublicHash)
    (index : UInt16) (ctx : Context Acc Ev) : Except Err Unit × Context Acc Ev :=
  match (Transaction.validate tx pid signers).run ctx with
  | (.error err, ctx) => (.error err, ctx)
  | (.ok _, ctx) =>
    match (Transaction.execute tx pid index).run ctx with
    | (.error err, ctx) => (.error err, ctx)
    | (.ok _, ctx) => (generatorKept (ctx.hasAccount generator), ctx)

/-- A transaction in its own snapshot. A failure of `UseTimeSlot` returns without
reverting the snapshot; every later failure reverts it. -/
def executeTransaction (generator : Address) (pid : UInt8) (slot : UInt32) (txHash : Hash256)
    (tx : Tx) (signers : List PublicHash) (index : UInt16) (ctx : Context Acc Ev) :
    Except Err Unit × Context Acc Ev :=
  let (sn, ctx) := ctx.snapshot
  match ctx.useTimeSlot slot txHash with
  | (.error err, ctx) => (.error err, ctx)
  | (.ok _, ctx) =>
    let (result, ctx) := runTransaction generator pid tx signers index ctx
    (result, ctx.settle sn result)

structure TxEntry (Tx : Type) where
  t : UInt16
  tx : Tx
  txHash : Hash256
  signers : List PublicHash

/-- The transaction loop of `executeBlockOnContext` from the given index on. -/
def executeTransactions (generator : Address) (currentSlot : UInt32) :
    List (TxEntry Tx) → Nat → Context Acc Ev → Except Err Unit × Context Acc Ev
  | [], _, ctx => (.ok (), ctx)
  | entry :: rest, i, ctx =>
    let slot := toTimeSlot (Transaction.timestamp entry.tx)
    if outsideWindow currentSlot slot then (.error .invalidTransactionTimeSlot, ctx)
    else if !cn.hasProcess (processOf entry.t) then (.error .notExistProcess, ctx)
    else
      match executeTransaction generator (processOf entry.t) slot entry.txHash entry.tx
          entry.signers (UInt16.ofNat i) ctx with
      | (.error err, ctx) => (.error err, ctx)
      | (.ok _, ctx) => executeTransactions generator currentSlot rest (i + 1) ctx

end Execute

section Signatures

variable [HashFunction] [Msgpack] [Transaction Acc Ev Tx]

/-- The signers of one transaction: what the provider remembers for exactly these
signatures, or the recovered public hashes. -/
def signersOf (sp : Option SignerProvider) (txHash : Hash256) (sigs : List Signature) :
    Except Err (List PublicHash) :=
  let remembered : Option (List PublicHash) :=
    match sp with
    | none => none
    | some sp =>
      match sp txHash with
      | (some known, signers) => if known = sigs then signers else none
      | (none, _) => none
  match remembered with
  | some signers => .ok signers
  | none => sigs.mapM (cn.recoverPublicHash txHash)

def zipTransactions (b : Block Tx) : List (UInt16 × Tx × List Signature) :=
  b.transactionTypes.zip (b.transactions.zip b.transactionSignatures)

def entryOf (chainID : UInt8) (sp : Option SignerProvider) (item : UInt16 × Tx × List Signature) :
    Except Err (TxEntry Tx) :=
  let txHash := hashTransactionByType chainID item.1 item.2.1
  match cn.signersOf sp txHash item.2.2 with
  | .error err => .error err
  | .ok signers => .ok ⟨item.1, item.2.1, txHash, signers⟩

/-- `validateTransactionSignatures` with a single worker: the hash and the signers of
every transaction, after the level root has been compared. -/
def validateTransactionSignatures (chainID : UInt8) (b : Block Tx) (sp : Option SignerProvider) :
    Except Err (List (TxEntry Tx)) :=
  match (zipTransactions b).mapM (cn.entryOf chainID sp) with
  | .error err => .error err
  | .ok entries =>
    match buildLevelRoot (b.header.prevHash :: entries.map TxEntry.txHash) with
    | .error err => .error err
    | .ok root =>
      if b.header.levelRootHash ≠ root then .error .invalidLevelRootHash else .ok entries

end Signatures

variable [Account Acc] [Event Ev] [Base58] [HashFunction] [Msgpack] [Transaction Acc Ev Tx]

def executeBlockOnContext (chainID : UInt8) (b : Block Tx) (sp : Option SignerProvider)
    (ctx : Context Acc Ev) : Except Err Unit × Context Acc Ev :=
  match cn.validateTransactionSignatures chainID b sp with
  | .error err => (.error err, ctx)
  | .ok entries =>
    match runHooks (cn.hooks (·.beforeExecuteTransactions)) ctx with
    | (.error err, ctx) => (.error err, ctx)
    | (.ok _, ctx) =>
      match cn.executeTransactions b.header.generator (toTimeSlot b.header.timestamp) entries 0
          ctx with
      | (.error err, ctx) => (.error err, ctx)
      | (.ok _, ctx) =>
        if ctx.stackSize > 1 then (.error .dirtyContext, ctx)
        else runHooks (cn.hooks (·.afterExecuteTransactions b.view)) ctx

end Chain

end Fleta
