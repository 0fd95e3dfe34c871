import Fleta.Primitives

/-!
# The state context of a block

A context is a stack of `ContextData` layers over a loader. Each layer keeps, per
kind of data, the values set in it and the keys deleted in it. A read walks down
from the top layer; the top layer keeps a copy of what a lower one answered. The
loader is read through `contextCache`, which remembers its answers.

`Snapshot` pushes a layer, `Revert` drops layers and `Commit` merges them down.
-/

namespace Fleta

open SortedMap

class Account (Acc : Type) where
  address : Acc → Address
  name : Acc → Bytes

class Event (Ev : Type) where
  setN : UInt16 → Ev → Ev

structure TxIn where
  height : UInt32
  index : UInt16
  n : UInt16
deriving DecidableEq

def TxIn.id (txIn : TxIn) : UInt64 :=
  txIn.height.toUInt64 <<< 32 ||| txIn.index.toUInt64 <<< 16 ||| txIn.n.toUInt64

structure TxOut where
  amount : Int
  publicHash : PublicHash
deriving DecidableEq

structure UTXO extends TxIn, TxOut
deriving DecidableEq

/-- `internalLoader`: the state below a context. -/
structure Loader (Acc : Type) where
  chainID : UInt8
  name : Bytes
  version : UInt16
  targetHeight : UInt32
  lastHash : Hash256
  lastTimestamp : UInt64
  account : Address → Except Err Acc
  addressByName : Bytes → Except Err Address
  hasAccount : Address → Except Err Bool
  hasAccountName : Bytes → Except Err Bool
  accountData : Address → UInt8 → Bytes → Bytes
  hasUTXO : UInt64 → Except Err Bool
  utxo : UInt64 → Except Err UTXO
  processData : UInt8 → Bytes → Bytes
  hasTimeSlot : UInt32 → Bytes → Bool

abbrev TimeSlotMap := SortedMap UInt32 (SortedMap Bytes Bool)

namespace TimeSlotMap

def hasKey (map : TimeSlotMap) (slot : UInt32) (key : Bytes) : Bool :=
  match map.get slot with
  | some mp => mp.has key
  | none => false

def putKey (map : TimeSlotMap) (slot : UInt32) (key : Bytes) : TimeSlotMap :=
  map.put slot (((map.get slot).getD .empty).put key true)

end TimeSlotMap

structure ContextData (Acc Ev : Type) where
  accountMap : SortedMap Address Acc
  deletedAccountMap : SortedMap Address Acc
  accountNameMap : SortedMap Bytes Address
  accountDataMap : SortedMap Bytes Bytes
  deletedAccountDataMap : SortedMap Bytes Bool
  processDataMap : SortedMap Bytes Bytes
  deletedProcessDataMap : SortedMap Bytes Bool
  utxoMap : SortedMap UInt64 UTXO
  createdUTXOMap : SortedMap UInt64 TxOut
  deletedUTXOMap : SortedMap UInt64 UTXO
  events : List Ev
  eventN : UInt16
  timeSlotMap : TimeSlotMap
  isTop : Bool

structure ContextCache (Acc : Type) where
  accountMap : SortedMap Address Acc
  accountNameMap : SortedMap Bytes Address
  accountDataMap : SortedMap Bytes Bytes
  processDataMap : SortedMap Bytes Bytes
  utxoMap : SortedMap UInt64 UTXO
  timeSlotMap : TimeSlotMap

/-- The stack is never empty: `top` is its last element and `parents` the layers
below it, nearest first. -/
structure Context (Acc Ev : Type) where
  loader : Loader Acc
  genTargetHeight : UInt32
  genLastHash : Hash256
  genTimestamp : UInt64
  cache : ContextCache Acc
  top : ContextData Acc Ev
  parents : List (ContextData Acc Ev)
  isLatestHash : Bool
  dataHash : Hash256

variable {Acc Ev : Type}

namespace ContextCache

def new : ContextCache Acc where
  accountMap := .empty
  accountNameMap := .empty
  accountDataMap := .empty
  processDataMap := .empty
  utxoMap := .empty
  timeSlotMap := .empty

/-- The common body of `Account`, `AddressByName` and `UTXO`: a loaded value is
remembered, an error is not. -/
def recalled {Key Value : Type} [Ord Key] [Std.TransOrd Key] (map : SortedMap Key Value) (key : Key)
    (loaded : Except Err Value) : Except Err Value × SortedMap Key Value :=
  match map.get key with
  | some value => (.ok value, map)
  | none =>
    match loaded with
    | .error err => (.error err, map)
    | .ok value => (.ok value, map.put key value)

/-- The common body of `AccountData` and `ProcessData`: a missing value is remembered
too. -/
def recallData (map : SortedMap Bytes Bytes) (key loaded : Bytes) : Bytes × SortedMap Bytes Bytes :=
  match map.get key with
  | some value => (value, map)
  | none => (loaded, map.put key loaded)

def account (loader : Loader Acc) (addr : Address) (cache : ContextCache Acc) :
    Except Err Acc × ContextCache Acc :=
  let (result, map) := recalled cache.accountMap addr (loader.account addr)
  (result, { cache with accountMap := map })

def addressByName (loader : Loader Acc) (name : Bytes) (cache : ContextCache Acc) :
    Except Err Address × ContextCache Acc :=
  let (result, map) := recalled cache.accountNameMap name (loader.addressByName name)
  (result, { cache with accountNameMap := map })

def hasAccount (loader : Loader Acc) (addr : Address) (cache : ContextCache Acc) :
    Except Err Bool :=
  if cache.accountMap.has addr then .ok true else loader.hasAccount addr

def hasAccountName (loader : Loader Acc) (name : Bytes) (cache : ContextCache Acc) :
    Except Err Bool :=
  if cache.accountNameMap.has name then .ok true else loader.hasAccountName name

def accountData (loader : Loader Acc) (addr : Address) (pid : UInt8) (name : Bytes)
    (cache : ContextCache Acc) : Bytes × ContextCache Acc :=
  let (value, map) :=
    recallData cache.accountDataMap (accountDataKey addr pid name) (loader.accountData addr pid name)
  (value, { cache with accountDataMap := map })

/-- Only ids already read through `UTXO` are found; the loader is not asked. -/
def hasUTXO (id : UInt64) (cache : ContextCache Acc) : Except Err Bool :=
  .ok (cache.utxoMap.has id)

def utxo (loader : Loader Acc) (id : UInt64) (cache : ContextCache Acc) :
    Except Err UTXO × ContextCache Acc :=
  let (result, map) := recalled cache.utxoMap id (loader.utxo id)
  (result, { cache with utxoMap := map })

def processData (loader : Loader Acc) (pid : UInt8) (name : Bytes) (cache : ContextCache Acc) :
    Bytes × ContextCache Acc :=
  let (value, map) :=
    recallData cache.processDataMap (processDataKey pid name) (loader.processData pid name)
  (value, { cache with processDataMap := map })

def hasTimeSlot (loader : Loader Acc) (slot : UInt32) (key : Bytes) (cache : ContextCache Acc) :
    Bool × ContextCache Acc :=
  if cache.timeSlotMap.hasKey slot key then (true, cache)
  else if loader.hasTimeSlot slot key then
    (true, { cache with timeSlotMap := cache.timeSlotMap.putKey slot key })
  else (false, cache)

end ContextCache

/-- One kind of data as a read sees it: which key a layer marks deleted, which
value it holds, how the layer keeps a copy, what a deleted key reads as and which
results are worth keeping. -/
structure Slot (Acc Ev Value Result : Type) where
  deleted : ContextData Acc Ev → Bool
  value : ContextData Acc Ev → Option Value
  keep : Value → ContextData Acc Ev → ContextData Acc Ev
  gone : Result
  hit : Value → Result
  found : Result → Option Value

namespace ContextData

def new (parent : Option (ContextData Acc Ev)) : ContextData Acc Ev where
  accountMap := .empty
  deletedAccountMap := .empty
  accountNameMap := .empty
  accountDataMap := .empty
  deletedAccountDataMap := .empty
  processDataMap := .empty
  deletedProcessDataMap := .empty
  utxoMap := .empty
  createdUTXOMap := .empty
  deletedUTXOMap := .empty
  events := []
  eventN := match parent with
    | some parent => parent.eventN
    | none => 0
  timeSlotMap := .empty
  isTop := true

def keepFound {Value Result : Type} (slot : Slot Acc Ev Value Result) (result : Result)
    (ctd : ContextData Acc Ev) : ContextData Acc Ev :=
  match slot.found result with
  | some value => if ctd.isTop then slot.keep value ctd else ctd
  | none => ctd

/-- The common body of `Account`, `AddressByName`, `AccountData`, `UTXO` and
`ProcessData` on a layer and its parents. -/
def read {Value Result : Type} (slot : Slot Acc Ev Value Result)
    (below : ContextCache Acc → Result × ContextCache Acc) :
    ContextData Acc Ev → List (ContextData Acc Ev) → ContextCache Acc →
      Result × ContextData Acc Ev × List (ContextData Acc Ev) × ContextCache Acc
  | ctd, parents, cache =>
    if slot.deleted ctd then (slot.gone, ctd, parents, cache)
    else match slot.value ctd with
      | some value => (slot.hit value, ctd, parents, cache)
      | none =>
        match parents with
        | [] =>
          let (result, cache) := below cache
          (result, keepFound slot result ctd, [], cache)
        | parent :: rest =>
          let (result, parent, rest, cache) := read slot below parent rest cache
          (result, keepFound slot result ctd, parent :: rest, cache)

/-- The common body of `HasAccount`, `HasAccountName` and `HasUTXO`. -/
def hasKey (deleted present : ContextData Acc Ev → Bool) (below : Except Err Bool) :
    List (ContextData Acc Ev) → Except Err Bool
  | [] => below
  | ctd :: parents =>
    if deleted ctd then .ok false
    else if present ctd then .ok true
    else hasKey deleted present below parents

def accountSlot (addr : Address) : Slot Acc Ev Acc (Except Err Acc) where
  deleted ctd := ctd.deletedAccountMap.has addr
  value ctd := ctd.accountMap.get addr
  keep acc ctd := { ctd with accountMap := ctd.accountMap.put addr acc }
  gone := .error .deletedAccount
  hit := .ok
  found := Except.toOption

/-- Deleted names are only removed from the layer that held them. -/
def accountNameSlot (name : Bytes) : Slot Acc Ev Address (Except Err Address) where
  deleted _ := false
  value ctd := ctd.accountNameMap.get name
  keep addr ctd := { ctd with accountNameMap := ctd.accountNameMap.put name addr }
  gone := .error .notExistAccount
  hit := .ok
  found := Except.toOption

def nonEmpty (value : Bytes) : Option Bytes := if value.length > 0 then some value else none

def accountDataSlot (key : Bytes) : Slot Acc Ev Bytes Bytes where
  deleted ctd := ctd.deletedAccountDataMap.has key
  value ctd := ctd.accountDataMap.get key
  keep value ctd := { ctd with accountDataMap := ctd.accountDataMap.put key value }
  gone := []
  hit value := value
  found := nonEmpty

def processDataSlot (key : Bytes) : Slot Acc Ev Bytes Bytes where
  deleted ctd := ctd.deletedProcessDataMap.has key
  value ctd := ctd.processDataMap.get key
  keep value ctd := { ctd with processDataMap := ctd.processDataMap.put key value }
  gone := []
  hit value := value
  found := nonEmpty

def utxoSlot (id : UInt64) : Slot Acc Ev UTXO (Except Err UTXO) where
  deleted ctd := ctd.deletedUTXOMap.has id
  value ctd := ctd.utxoMap.get id
  keep utxo ctd := { ctd with utxoMap := ctd.utxoMap.put id utxo }
  gone := .error .usedUTXO
  hit := .ok
  found := Except.toOption

end ContextData

namespace ContextData

def setAccountData (key value : Bytes) (ctd : ContextData Acc Ev) : ContextData Acc Ev :=
  if value.length = 0 then
    { ctd with
      accountDataMap := ctd.accountDataMap.delete key
      deletedAccountDataMap := ctd.deletedAccountDataMap.put key true }
  else
    { ctd with
      deletedAccountDataMap := ctd.deletedAccountDataMap.delete key
      accountDataMap := ctd.accountDataMap.put key value }

def setProcessData (key value : Bytes) (ctd : ContextData Acc Ev) : ContextData Acc Ev :=
  if value.length = 0 then
    { ctd with
      processDataMap := ctd.processDataMap.delete key
      deletedProcessDataMap := ctd.deletedProcessDataMap.put key true }
  else
    { ctd with
      deletedProcessDataMap := ctd.deletedProcessDataMap.delete key
      processDataMap := ctd.processDataMap.put key value }

def emitEvent [Event Ev] (event : Ev) (ctd : ContextData Acc Ev) : ContextData Acc Ev :=
  { ctd with
    events := ctd.events ++ [Event.setN ctd.eventN event]
    eventN := ctd.eventN + 1 }

def mergeSlot (child : SortedMap Bytes Bool) : Option (SortedMap Bytes Bool) → SortedMap Bytes Bool
  | some parent => putAll child parent
  | none => child

def mergeTimeSlots (child parent : TimeSlotMap) : TimeSlotMap :=
  child.eachAll.foldl (fun map entry => map.put entry.1 (mergeSlot entry.2 (map.get entry.1))) parent

/-- One round of the loop in `Commit`: the child layer written over its parent. The
deletion marks of the parent stay, also for keys the child has set again. -/
def mergeInto (child parent : ContextData Acc Ev) : ContextData Acc Ev where
  accountMap := deleteAll child.deletedAccountMap (putAll child.accountMap parent.accountMap)
  deletedAccountMap := putAll child.deletedAccountMap parent.deletedAccountMap
  accountNameMap := putAll child.accountNameMap parent.accountNameMap
  accountDataMap := deleteAll child.deletedAccountDataMap
      (putAll child.accountDataMap parent.accountDataMap)
  deletedAccountDataMap := putAll child.deletedAccountDataMap parent.deletedAccountDataMap
  utxoMap := deleteAll child.deletedUTXOMap (putAll child.utxoMap parent.utxoMap)
  createdUTXOMap := deleteAll child.deletedUTXOMap
      (putAll child.createdUTXOMap parent.createdUTXOMap)
  deletedUTXOMap := putAll child.deletedUTXOMap parent.deletedUTXOMap
  events := parent.events ++ child.events
  eventN := child.eventN
  processDataMap := deleteAll child.deletedProcessDataMap
      (putAll child.processDataMap parent.processDataMap)
  deletedProcessDataMap := putAll child.deletedProcessDataMap parent.deletedProcessDataMap
  timeSlotMap := mergeTimeSlots child.timeSlotMap parent.timeSlotMap
  isTop := parent.isTop

/-- The loop of `Commit` on the top layer and its parents. A snapshot number is at
least two, so the last layer is never popped. -/
def commitLoop (sn : Nat) :
    ContextData Acc Ev → List (ContextData Acc Ev) → ContextData Acc Ev × List (ContextData Acc Ev)
  | ctd, [] => (ctd, [])
  | ctd, parent :: rest =>
    if rest.length + 2 ≥ sn then commitLoop sn (mergeInto ctd parent) rest
    else (ctd, parent :: rest)

def revertLoop (sn : Nat) :
    ContextData Acc Ev → List (ContextData Acc Ev) → ContextData Acc Ev × List (ContextData Acc Ev)
  | ctd, [] => (ctd, [])
  | ctd, parent :: rest =>
    if rest.length + 2 ≥ sn then revertLoop sn parent rest else (ctd, parent :: rest)

end ContextData

namespace Context

def new (loader : Loader Acc) : Context Acc Ev where
  loader := loader
  genTargetHeight := loader.targetHeight
  genLastHash := loader.lastHash
  genTimestamp := loader.lastTimestamp
  cache := .new
  top := .new none
  parents := []
  isLatestHash := false
  dataHash := List.replicate 32 0

def read {Value Result : Type} (slot : Slot Acc Ev Value Result)
    (below : ContextCache Acc → Result × ContextCache Acc) (ctx : Context Acc Ev) :
    Result × Context Acc Ev :=
  let (result, top, parents, cache) := ContextData.read slot below ctx.top ctx.parents ctx.cache
  (result, { ctx with top := top, parents := parents, cache := cache })

def touch (ctx : Context Acc Ev) : Context Acc Ev := { ctx with isLatestHash := false }

def account (addr : Address) (ctx : Context Acc Ev) : Except Err Acc × Context Acc Ev :=
  ctx.touch.read (ContextData.accountSlot addr) (ContextCache.account ctx.loader addr)

def addressByName (name : Bytes) (ctx : Context Acc Ev) : Except Err Address × Context Acc Ev :=
  ctx.read (ContextData.accountNameSlot name) (ContextCache.addressByName ctx.loader name)

def hasAccount (addr : Address) (ctx : Context Acc Ev) : Except Err Bool :=
  ContextData.hasKey (·.deletedAccountMap.has addr) (·.accountMap.has addr)
    (ctx.cache.hasAccount ctx.loader addr) (ctx.top :: ctx.parents)

def hasAccountName (name : Bytes) (ctx : Context Acc Ev) : Except Err Bool :=
  ContextData.hasKey (fun _ => false) (·.accountNameMap.has name)
    (ctx.cache.hasAccountName ctx.loader name) (ctx.top :: ctx.parents)

def accountData (addr : Address) (pid : UInt8) (name : Bytes) (ctx : Context Acc Ev) :
    Bytes × Context Acc Ev :=
  ctx.read (ContextData.accountDataSlot (accountDataKey addr pid name))
    (ContextCache.accountData ctx.loader addr pid name)

def processData (pid : UInt8) (name : Bytes) (ctx : Context Acc Ev) : Bytes × Context Acc Ev :=
  ctx.read (ContextData.processDataSlot (processDataKey pid name))
    (ContextCache.processData ctx.loader pid name)

def hasUTXO (id : UInt64) (ctx : Context Acc Ev) : Except Err Bool :=
  ContextData.hasKey (·.deletedUTXOMap.has id)
    (fun ctd => ctd.utxoMap.has id || ctd.createdUTXOMap.has id)
    (ctx.cache.hasUTXO id) (ctx.top :: ctx.parents)

def utxo (id : UInt64) (ctx : Context Acc Ev) : Except Err UTXO × Context Acc Ev :=
  ctx.read (ContextData.utxoSlot id) (ContextCache.utxo ctx.loader id)

def setAccountData (addr : Address) (pid : UInt8) (name value : Bytes) (ctx : Context Acc Ev) :
    Context Acc Ev :=
  { ctx.touch with top := ctx.top.setAccountData (accountDataKey addr pid name) value }

/-- The memoised hash is not invalidated here. -/
def setProcessData (pid : UInt8) (name value : Bytes) (ctx : Context Acc Ev) : Context Acc Ev :=
  { ctx with top := ctx.top.setProcessData (processDataKey pid name) value }

def refusal (tolerated : Err → Bool) (taken : Err) : Except Err Bool → Option Err
  | .error err => if tolerated err then none else some err
  | .ok true => some taken
  | .ok false => none

/-- The common body of `CreateAccount` and `CreateAccountIgnoreDelete`, which differ
in the errors of the existence checks they ignore. -/
def insertAccount [Account Acc] [Base58] (tolerated : Err → Bool) (acc : Acc)
    (ctx : Context Acc Ev) : Except Err Unit × Context Acc Ev :=
  let ctx := ctx.touch
  let addr := Account.address acc
  let name := Account.name acc
  if addr.height ≠ ctx.genTargetHeight then (.error .invalidAddressHeight, ctx)
  else if addr = .zero then (.error .notAllowedEmptyAddressAccount, ctx)
  else if (Address.parse name).isOk then (.error .notAllowedAddressAccountName, ctx)
  else match refusal tolerated .existAccount (ctx.hasAccount addr) with
    | some err => (.error err, ctx)
    | none =>
      match refusal tolerated .existAccountName (ctx.hasAccountName name) with
      | some err => (.error err, ctx)
      | none =>
        (.ok (), { ctx with
            top := { ctx.top with
                accountMap := ctx.top.accountMap.put addr acc
                accountNameMap := ctx.top.accountNameMap.put name addr } })

def createAccount [Account Acc] [Base58] (acc : Acc) (ctx : Context Acc Ev) :
    Except Err Unit × Context Acc Ev :=
  ctx.insertAccount (fun err => err == .notExistAccount) acc

def createAccountIgnoreDelete [Account Acc] [Base58] (acc : Acc) (ctx : Context Acc Ev) :
    Except Err Unit × Context Acc Ev :=
  ctx.insertAccount (fun err => err == .notExistAccount || err == .deletedAccount) acc

def deleteAccount [Account Acc] (acc : Acc) (ctx : Context Acc Ev) :
    Except Err Unit × Context Acc Ev :=
  match ctx.account (Account.address acc) with
  | (.error err, ctx) => (.error err, ctx)
  | (.ok _, ctx) =>
    (.ok (), { ctx with
        top := { ctx.top with
            deletedAccountMap := ctx.top.deletedAccountMap.put (Account.address acc) acc
            accountMap := ctx.top.accountMap.delete (Account.address acc)
            accountNameMap := ctx.top.accountNameMap.delete (Account.name acc) } })

/-- A read of an account whose fields the caller then changes through the pointer.
The pointer leads into the top layer, which has just kept its own copy. -/
def updateAccount (addr : Address) (change : Acc → Acc) (ctx : Context Acc Ev) :
    Except Err Acc × Context Acc Ev :=
  match ctx.account addr with
  | (.error err, ctx) => (.error err, ctx)
  | (.ok acc, ctx) =>
    (.ok acc, { ctx with
        top := { ctx.top with accountMap := ctx.top.accountMap.put addr (change acc) } })

def createUTXO (id : UInt64) (vout : TxOut) (ctx : Context Acc Ev) :
    Except Err Unit × Context Acc Ev :=
  match ctx.touch.utxo id with
  | (.ok _, ctx) => (.error .existUTXO, ctx)
  | (.error err, ctx) =>
    if err ≠ .notExistUTXO then (.error err, ctx)
    else
      (.ok (), { ctx with
          top := { ctx.top with createdUTXOMap := ctx.top.createdUTXOMap.put id vout } })

def deleteUTXO (utxo : UTXO) (ctx : Context Acc Ev) : Except Err Unit × Context Acc Ev :=
  match ctx.touch.utxo utxo.id with
  | (.error err, ctx) => (.error err, ctx)
  | (.ok _, ctx) =>
    (.ok (), { ctx with
        top := { ctx.top with deletedUTXOMap := ctx.top.deletedUTXOMap.put utxo.id utxo } })

def emitEvent [Event Ev] (event : Ev) (ctx : Context Acc Ev) : Context Acc Ev :=
  { ctx.touch with top := ctx.top.emitEvent event }

/-- `UseTimeSlot` asks the top layer and the loader, but no layer in between. -/
def useTimeSlot (slot : UInt32) (key : Bytes) (ctx : Context Acc Ev) :
    Except Err Unit × Context Acc Ev :=
  if ctx.top.timeSlotMap.hasKey slot key then (.error .usedTimeSlot, ctx)
  else
    let (has, cache) := ctx.cache.hasTimeSlot ctx.loader slot key
    let top := { ctx.top with timeSlotMap := ctx.top.timeSlotMap.putKey slot key }
    (if has then .error .usedTimeSlot else .ok (), { ctx with cache := cache, top := top })

/-- A used key found below is remembered in the top layer. -/
def hasTimeSlot (slot : UInt32) (key : Bytes) (ctx : Context Acc Ev) : Bool × Context Acc Ev :=
  if ctx.top.timeSlotMap.hasKey slot key then (true, ctx)
  else
    let (has, cache) := ctx.cache.hasTimeSlot ctx.loader slot key
    let top := { ctx.top with timeSlotMap := ctx.top.timeSlotMap.putKey slot key }
    (has, { ctx with cache := cache, top := if has then top else ctx.top })

def stackSize (ctx : Context Acc Ev) : Nat := ctx.parents.length + 1

/-- Returns the new stack size as the snapshot number. -/
def snapshot (ctx : Context Acc Ev) : Nat × Context Acc Ev :=
  (ctx.stackSize + 1, { ctx.touch with
      top := .new (some ctx.top)
      parents := { ctx.top with isTop := false } :: ctx.parents })

def revert (sn : Nat) (ctx : Context Acc Ev) : Context Acc Ev :=
  let (top, parents) := ContextData.revertLoop sn ctx.top ctx.parents
  { ctx.touch with top := { top with isTop := true }, parents := parents }

def commit (sn : Nat) (ctx : Context Acc Ev) : Context Acc Ev :=
  let (top, parents) := ContextData.commitLoop sn ctx.top ctx.parents
  { ctx.touch with top := { top with isTop := true }, parents := parents }

end Context

end Fleta
