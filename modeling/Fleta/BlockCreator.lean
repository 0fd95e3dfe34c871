import Fleta.Chain

/-!
# Building a block

A `BlockCreator` tries transactions one after another on a context and keeps those
that succeed. `Finalize` runs the closing hooks and seals the block with the hash of
the context.
-/

namespace Fleta

variable {Acc Ev Tx : Type}

structure BlockCreator (Acc Ev Tx : Type) where
  ctx : Context Acc Ev
  txHashes : List Hash256
  b : Block Tx

structure TxCall (Tx : Type) where
  generator : Address
  t : UInt16
  txHash : Hash256
  tx : Tx
  sigs : List Signature
  signers : List PublicHash

namespace BlockCreator

def new (ctx : Context Acc Ev) (generator : Address) (consensusData : Bytes) (timestamp : UInt64) :
    BlockCreator Acc Ev Tx where
  ctx := ctx
  txHashes := [ctx.genLastHash]
  b :=
    { header :=
        { chainID := ctx.loader.chainID
          version := ctx.loader.version
          height := ctx.genTargetHeight
          prevHash := ctx.genLastHash
          levelRootHash := List.replicate 32 0
          contextHash := List.replicate 32 0
          timestamp := timestamp
          generator := generator
          consensusData := consensusData }
      transactionTypes := []
      transactions := []
      transactionSignatures := []
      signatures := [] }

variable [Account Acc] [Event Ev] [Base58] (cn : Chain Acc Ev Tx)

def init (bc : BlockCreator Acc Ev Tx) : Except Err Unit × BlockCreator Acc Ev Tx :=
  let (result, ctx) := Chain.runHooks (cn.hooks (·.beforeExecuteTransactions)) bc.ctx
  (result, { bc with ctx := ctx })

def accept (call : TxCall Tx) (ctx : Context Acc Ev) (bc : BlockCreator Acc Ev Tx) :
    BlockCreator Acc Ev Tx where
  ctx := ctx
  txHashes := bc.txHashes ++ [call.txHash]
  b := { bc.b with
      transactionTypes := bc.b.transactionTypes ++ [call.t]
      transactions := bc.b.transactions ++ [call.tx]
      transactionSignatures := bc.b.transactionSignatures ++ [call.sigs] }

def unsafeAddTx [Transaction Acc Ev Tx] (call : TxCall Tx) (bc : BlockCreator Acc Ev Tx) :
    Except Err Unit × BlockCreator Acc Ev Tx :=
  let slot := toTimeSlot (Transaction.timestamp call.tx)
  if !cn.hasProcess (processOf call.t) then (.error .notExistProcess, bc)
  else if Chain.outsideWindow (toTimeSlot bc.b.header.timestamp) slot then
    (.error .invalidTransactionTimeSlot, bc)
  else
    match Chain.executeTransaction call.generator (processOf call.t) slot call.txHash call.tx
        call.signers (UInt16.ofNat bc.b.transactions.length) bc.ctx with
    | (.error err, ctx) => (.error err, { bc with ctx := ctx })
    | (.ok _, ctx) => (.ok (), bc.accept call ctx)

/-- A sequence of calls whose errors are ignored, as the generator of a block does. -/
def addTxs [Transaction Acc Ev Tx] (calls : List (TxCall Tx)) (bc : BlockCreator Acc Ev Tx) :
    BlockCreator Acc Ev Tx :=
  calls.foldl (fun bc call => (bc.unsafeAddTx cn call).2) bc

variable [HashFunction] [Msgpack] [AccountCodec Acc] [TxOutCodec] [EventCodec Ev]

def finalize (bc : BlockCreator Acc Ev Tx) : Except Err (Block Tx) :=
  match buildLevelRoot bc.txHashes with
  | .error err => .error err
  | .ok root =>
    let b := { bc.b with header := { bc.b.header with levelRootHash := root } }
    if bc.ctx.stackSize > 1 then .error .dirtyContext
    else
      match Chain.runHooks (cn.hooks (·.afterExecuteTransactions b.view)) bc.ctx with
      | (.error err, _) => .error err
      | (.ok _, ctx) =>
        .ok { b with header := { b.header with contextHash := ctx.hash.1 } }

/-- The use of a block creator: `Init`, some calls of `UnsafeAddTx`, `Finalize`. -/
def createBlock [Transaction Acc Ev Tx] (ctx : Context Acc Ev) (generator : Address)
    (consensusData : Bytes) (timestamp : UInt64) (calls : List (TxCall Tx)) :
    Except Err (Block Tx) :=
  match (new ctx generator consensusData timestamp : BlockCreator Acc Ev Tx).init cn with
  | (.error err, _) => .error err
  | (.ok _, bc) => (bc.addTxs cn calls).finalize cn

end BlockCreator

end Fleta
