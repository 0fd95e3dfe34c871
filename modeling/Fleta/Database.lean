import Fleta.Context

/-!
# The state database of a store

The state part of `Store` is a key/value database. Every kind of data has its own
two-byte tag in front of its keys. A deleted account leaves the single byte zero
under its key, so its address is never used again.

Reading or writing the database itself does not fail in the model.
-/

namespace Fleta

open ByteOrder SortedMap

/-- The account factory and the encoding of accounts: the type number is written
in front of the encoded fields. -/
class AccountCodec (Acc : Type) where
  typeOf : Acc → UInt16
  marshal : Acc → Bytes
  unmarshal : UInt16 → Bytes → Except Err Acc
  unmarshal_marshal : ∀ acc, unmarshal (typeOf acc) (marshal acc) = .ok acc

class TxOutCodec where
  marshal : TxOut → Bytes
  unmarshal : Bytes → Except Err TxOut
  unmarshal_marshal : ∀ out, unmarshal (marshal out) = .ok out

abbrev Database := SortedMap Bytes Bytes

namespace Database

def tagHeight : Bytes := [1, 0]

def tagAccount : Bytes := [2, 0]

def tagAccountName : Bytes := [2, 1]

def tagAccountData : Bytes := [2, 3]

def tagUTXO : Bytes := [3, 0]

def tagProcessData : Bytes := [4, 0]

def toAccountKey (addr : Address) : Bytes := tagAccount ++ addr.bytes

def toAccountNameKey (name : Bytes) : Bytes := tagAccountName ++ name

def toAccountDataKey (key : Bytes) : Bytes := tagAccountData ++ key

def toUTXOKey (id : UInt64) : Bytes := tagUTXO ++ bigEndian 8 id.toNat

def toProcessDataKey (key : Bytes) : Bytes := tagProcessData ++ key

/-- `copy(addr[:], value)`. -/
def addressOf (value : Bytes) : Address := ⟨copyInto addressSize value, by simp⟩

@[simp] theorem addressOf_bytes (addr : Address) : addressOf addr.bytes = addr := by
  apply Address.eq_of_bytes_eq
  simp [addressOf, copyInto, ← addr.size]

variable {Acc Ev : Type}

def account [AccountCodec Acc] (addr : Address) (db : Database) : Except Err Acc :=
  match db.get (toAccountKey addr) with
  | none => .error .notExistAccount
  | some value =>
    if value = [0] then .error .deletedAccount
    else AccountCodec.unmarshal (UInt16.ofNat (fromLittleEndian (value.take 2))) (value.drop 2)

def hasAccount (addr : Address) (db : Database) : Except Err Bool :=
  match db.get (toAccountKey addr) with
  | none => .ok false
  | some value => if value = [0] then .error .deletedAccount else .ok true

def addressByName (name : Bytes) (db : Database) : Except Err Address :=
  match db.get (toAccountNameKey name) with
  | none => .error .notExistAccount
  | some value =>
    let addr := addressOf value
    match db.get (toAccountKey addr) with
    | none => .error .notExistAccount
    | some value => if value = [0] then .error .deletedAccount else .ok addr

def hasAccountName [Base58] (name : Bytes) (db : Database) : Except Err Bool :=
  if (Address.parse name).isOk then .error .invalidAccountName
  else match db.get (toAccountNameKey name) with
    | none => .ok false
    | some value =>
      match db.get (toAccountKey (addressOf value)) with
      | none => .ok false
      | some value => if value = [0] then .error .deletedAccount else .ok true

def accountData (addr : Address) (pid : UInt8) (name : Bytes) (db : Database) : Bytes :=
  (db.get (toAccountDataKey (accountDataKey addr pid name))).getD []

def processData (pid : UInt8) (name : Bytes) (db : Database) : Bytes :=
  (db.get (toProcessDataKey (processDataKey pid name))).getD []

def hasUTXO (id : UInt64) (db : Database) : Except Err Bool :=
  match db.get (toUTXOKey id) with
  | none => .ok false
  | some value => .ok (decide (value.length > 0))

def utxo [TxOutCodec] (id : UInt64) (db : Database) : Except Err UTXO :=
  match db.get (toUTXOKey id) with
  | none => .error .notExistUTXO
  | some value =>
    match TxOutCodec.unmarshal value with
    | .error err => .error err
    | .ok out =>
      .ok
        { height := (id >>> 32).toUInt32
          index := (id >>> 16).toUInt16
          n := id.toUInt16
          amount := out.amount
          publicHash := out.publicHash }

/-- What a store answers besides its state: the chain, the height to be built, the
last block and the used time slots. -/
structure Status where
  chainID : UInt8
  name : Bytes
  version : UInt16
  targetHeight : UInt32
  lastHash : Hash256
  lastTimestamp : UInt64
  timeSlotMap : TimeSlotMap

def toLoader [AccountCodec Acc] [TxOutCodec] [Base58] (status : Status) (db : Database) :
    Loader Acc where
  chainID := status.chainID
  name := status.name
  version := status.version
  targetHeight := status.targetHeight
  lastHash := status.lastHash
  lastTimestamp := status.lastTimestamp
  account addr := db.account addr
  addressByName name := db.addressByName name
  hasAccount addr := db.hasAccount addr
  hasAccountName name := db.hasAccountName name
  accountData addr pid name := db.accountData addr pid name
  hasUTXO id := db.hasUTXO id
  utxo id := db.utxo id
  processData pid name := db.processData pid name
  hasTimeSlot slot key := status.timeSlotMap.hasKey slot key

def encodeAccount [AccountCodec Acc] (acc : Acc) : Bytes :=
  littleEndian 2 (AccountCodec.typeOf acc).toNat ++ AccountCodec.marshal acc

def writeAccount [Account Acc] [AccountCodec Acc] (db : Database) (entry : Address × Acc) :
    Database :=
  (db.put (toAccountKey entry.1) (encodeAccount entry.2)).put
    (toAccountNameKey (Account.name entry.2)) entry.1.bytes

/-- The keys `txn.Iterate` visits under a prefix. -/
def keysUnder (under : Bytes) (db : Database) : List Bytes :=
  (db.eachAll.map Prod.fst).filter fun key => under.isPrefixOf key

def eraseAccount (db : Database) (entry : Address × Acc) : Database :=
  let db := db.put (toAccountKey entry.1) [0]
  (keysUnder (toAccountDataKey entry.1.bytes) db).foldl (·.delete ·) db

def writeUTXOs [TxOutCodec] (ctd : ContextData Acc Ev) (db : Database) : Database :=
  let db := ctd.utxoMap.eachAll.foldl
    (fun db entry => db.put (toUTXOKey entry.1) (TxOutCodec.marshal entry.2.toTxOut)) db
  let db := ctd.createdUTXOMap.eachAll.foldl
    (fun db entry => db.put (toUTXOKey entry.1) (TxOutCodec.marshal entry.2)) db
  ctd.deletedUTXOMap.eachAll.foldl (fun db entry => db.delete (toUTXOKey entry.1)) db

def writeAccountState [Account Acc] [AccountCodec Acc] (ctd : ContextData Acc Ev) (db : Database) :
    Database :=
  let db := ctd.accountMap.eachAll.foldl writeAccount db
  let db := ctd.accountDataMap.eachAll.foldl
    (fun db entry => db.put (toAccountDataKey entry.1) entry.2) db
  let db := ctd.deletedAccountMap.eachAll.foldl eraseAccount db
  ctd.deletedAccountDataMap.eachAll.foldl (fun db entry => db.delete (toAccountDataKey entry.1)) db

def writeProcessState (ctd : ContextData Acc Ev) (db : Database) : Database :=
  let db := ctd.processDataMap.eachAll.foldl
    (fun db entry => db.put (toProcessDataKey entry.1) entry.2) db
  ctd.deletedProcessDataMap.eachAll.foldl (fun db entry => db.delete (toProcessDataKey entry.1)) db

def written [Account Acc] [AccountCodec Acc] [TxOutCodec] (ctd : ContextData Acc Ev)
    (db : Database) : Database :=
  writeProcessState ctd (writeUTXOs ctd (writeAccountState ctd db))

/-- The transaction is aborted when a cached UTXO does not carry its own id. -/
def applyContextData [Account Acc] [AccountCodec Acc] [TxOutCodec] (ctd : ContextData Acc Ev)
    (db : Database) : Except Err Database :=
  if ctd.utxoMap.eachAll.any fun entry => entry.2.id != entry.1 then .error .invalidTxInKey
  else .ok (written ctd db)

section Apply

variable [Account Acc] [AccountCodec Acc] (ctd : ContextData Acc Ev) (db : Database)

theorem to_account_key_injective {left right : Address}
    (same : toAccountKey left = toAccountKey right) : left = right :=
  Address.eq_of_bytes_eq (List.append_cancel_left same)

variable {tag other left right : Bytes}

theorem tagged_ne (size : tag.length = other.length)
    (differ : tag ≠ other) : tag ++ left ≠ other ++ right :=
  fun same => differ (List.append_inj_left same size)

theorem tagged_outside (size : tag.length = other.length)
    (differ : tag ≠ other) : ¬tag ++ left <+: other ++ right := by
  rintro ⟨tail, same⟩
  rw [List.append_assoc] at same
  exact tagged_ne size differ same

theorem mem_keysUnder (under key : Bytes) (db : Database) :
    key ∈ keysUnder under db → under <+: key := by
  intro member
  simpa using (List.mem_filter.mp member).2

omit [Account Acc] [AccountCodec Acc] in
theorem get_eraseAccount (entry : Address × Acc) (key : Bytes)
    (outside : ¬toAccountDataKey entry.1.bytes <+: key) :
    (eraseAccount db entry).get key = (db.put (toAccountKey entry.1) [0]).get key := by
  unfold eraseAccount
  rw [get_foldl_delete, if_neg]
  exact fun member => outside (mem_keysUnder _ _ _ member)

variable (addr : Address)

theorem get_writeAccountState_account :
    (writeAccountState ctd db).get (toAccountKey addr) =
      if ctd.deletedAccountMap.has addr then some [0]
      else match ctd.accountMap.get addr with
        | some acc => some (encodeAccount acc)
        | none => db.get (toAccountKey addr) := by
  have tagged : ∀ key, toAccountDataKey key ≠ toAccountKey addr :=
    fun _ => tagged_ne rfl (by decide)
  have named : ∀ name, toAccountNameKey name ≠ toAccountKey addr :=
    fun _ => tagged_ne rfl (by decide)
  have owner : ∀ other, toAccountKey other = toAccountKey addr ↔ other = addr := fun other =>
    ⟨to_account_key_injective, congrArg toAccountKey⟩
  have outside : ∀ other : Address, ¬toAccountDataKey other.bytes <+: toAccountKey addr :=
    fun _ => tagged_outside rfl (by decide)
  unfold writeAccountState
  rw [get_foldl_frame _ _ fun map entry => get_delete_of_ne map (tagged _)]
  rw [get_foldl_eachAll _ _ addr (fun _ _ => some [0]) ?erased]
  case erased =>
    intro map entry
    rw [get_eraseAccount map entry _ (outside _), get_put]
    simp only [owner]
  rw [get_foldl_frame _ _ fun map entry => get_put_of_ne map _ (tagged _)]
  rw [get_foldl_eachAll _ _ addr (fun acc _ => some (encodeAccount acc)) ?written]
  case written =>
    intro map entry
    rw [writeAccount, get_put_of_ne _ _ (named _), get_put]
    simp only [owner]
  rw [has_eq]
  cases ctd.deletedAccountMap.get addr <;> rfl

theorem data_key_outside {addr other : Address} (different : other ≠ addr) (rest : Bytes) :
    ¬toAccountDataKey other.bytes <+: toAccountDataKey (addr.bytes ++ rest) := by
  intro inside
  obtain ⟨tail, same⟩ := inside
  rw [toAccountDataKey, toAccountDataKey, List.append_assoc] at same
  have bytes := (List.append_inj (List.append_cancel_left same) (by
    rw [other.size, addr.size])).1
  exact different (Address.eq_of_bytes_eq bytes)

theorem get_writeAccountState_data (rest : Bytes) (kept : ctd.deletedAccountMap.has addr = false) :
    (writeAccountState ctd db).get (toAccountDataKey (addr.bytes ++ rest)) =
      if ctd.deletedAccountDataMap.has (addr.bytes ++ rest) then none
      else (ctd.accountDataMap.get (addr.bytes ++ rest)).or
        (db.get (toAccountDataKey (addr.bytes ++ rest))) := by
  have accounts : ∀ other, toAccountKey other ≠ toAccountDataKey (addr.bytes ++ rest) :=
    fun _ => tagged_ne rfl (by decide)
  have named : ∀ name, toAccountNameKey name ≠ toAccountDataKey (addr.bytes ++ rest) :=
    fun _ => tagged_ne rfl (by decide)
  have owner : ∀ key other, toAccountDataKey key = toAccountDataKey other ↔ key = other :=
    fun _ _ => List.append_right_inj _
  unfold writeAccountState
  rw [get_foldl_eachAll _ _ (addr.bytes ++ rest) (fun _ _ => none) ?deleted]
  case deleted =>
    intro map entry
    rw [get_delete]
    simp only [owner]
  rw [get_foldl_frame_mem _ _ ?erased]
  case erased =>
    intro map entry member
    have different : entry.1 ≠ addr := by
      rintro rfl
      have held := (mem_eachAll _ _ _).mp member
      simp [held] at kept
    rw [get_eraseAccount map entry _ (data_key_outside different rest),
      get_put_of_ne _ _ (accounts _)]
  rw [get_foldl_eachAll _ _ (addr.bytes ++ rest) (fun value _ => some value) ?written]
  case written =>
    intro map entry
    rw [get_put]
    simp only [owner]
  rw [get_foldl_frame _ _ fun map entry => by
    rw [writeAccount, get_put_of_ne _ _ (named _), get_put_of_ne _ _ (accounts _)]]
  rw [has_eq]
  cases ctd.deletedAccountDataMap.get (addr.bytes ++ rest) <;>
    cases ctd.accountDataMap.get (addr.bytes ++ rest) <;> rfl

omit [Account Acc] [AccountCodec Acc] in
theorem get_write_other_state [TxOutCodec] (rest : Bytes) :
    (writeProcessState ctd (writeUTXOs ctd db)).get (2 :: rest) = db.get (2 :: rest) := by
  have utxos : ∀ id, toUTXOKey id ≠ 2 :: rest := fun id same => by
    simp [toUTXOKey, tagUTXO] at same
  have processes : ∀ key, toProcessDataKey key ≠ 2 :: rest := fun key same => by
    simp [toProcessDataKey, tagProcessData] at same
  unfold writeProcessState writeUTXOs
  rw [get_foldl_frame _ _ fun map entry => get_delete_of_ne map (processes _),
    get_foldl_frame _ _ fun map entry => get_put_of_ne map _ (processes _),
    get_foldl_frame _ _ fun map entry => get_delete_of_ne map (utxos _),
    get_foldl_frame _ _ fun map entry => get_put_of_ne map _ (utxos _),
    get_foldl_frame _ _ fun map entry => get_put_of_ne map _ (utxos _)]

theorem get_written_process [TxOutCodec] (key : Bytes) :
    (written ctd db).get (toProcessDataKey key) =
      if (ctd.deletedProcessDataMap.get key).isSome then none
      else (ctd.processDataMap.get key).or (db.get (toProcessDataKey key)) := by
  have owner : ∀ other, toProcessDataKey other = toProcessDataKey key ↔ other = key :=
    fun _ => List.append_right_inj _
  have accounts : ∀ addr, toAccountKey addr ≠ toProcessDataKey key :=
    fun _ => tagged_ne rfl (by decide)
  have named : ∀ name, toAccountNameKey name ≠ toProcessDataKey key :=
    fun _ => tagged_ne rfl (by decide)
  have datas : ∀ other, toAccountDataKey other ≠ toProcessDataKey key :=
    fun _ => tagged_ne rfl (by decide)
  have utxos : ∀ id, toUTXOKey id ≠ toProcessDataKey key := fun _ => tagged_ne rfl (by decide)
  have outside : ∀ addr : Address, ¬toAccountDataKey addr.bytes <+: toProcessDataKey key :=
    fun _ => tagged_outside rfl (by decide)
  have below : (writeUTXOs ctd (writeAccountState ctd db)).get (toProcessDataKey key) =
      db.get (toProcessDataKey key) := by
    unfold writeUTXOs writeAccountState
    rw [get_foldl_frame _ _ fun map entry => get_delete_of_ne map (utxos _),
      get_foldl_frame _ _ fun map entry => get_put_of_ne map _ (utxos _),
      get_foldl_frame _ _ fun map entry => get_put_of_ne map _ (utxos _),
      get_foldl_frame _ _ fun map entry => get_delete_of_ne map (datas _),
      get_foldl_frame _ _ fun map entry => by
        rw [get_eraseAccount map entry _ (outside _), get_put_of_ne _ _ (accounts _)],
      get_foldl_frame _ _ fun map entry => get_put_of_ne map _ (datas _),
      get_foldl_frame _ _ fun map entry => by
        rw [writeAccount, get_put_of_ne _ _ (named _), get_put_of_ne _ _ (accounts _)]]
  unfold written writeProcessState
  rw [get_foldl_eachAll _ _ key (fun _ _ => none) ?deleted]
  case deleted =>
    intro map entry
    rw [get_delete]
    simp only [owner]
  rw [get_foldl_eachAll _ _ key (fun value _ => some value) ?written]
  case written =>
    intro map entry
    rw [get_put]
    simp only [owner]
  rw [below]
  cases ctd.deletedProcessDataMap.get key <;> cases ctd.processDataMap.get key <;> rfl

theorem get_written_account [TxOutCodec] {addr : Address}
    (kept : ctd.deletedAccountMap.get addr = none) :
    (written ctd db).get (toAccountKey addr) =
      match ctd.accountMap.get addr with
      | some acc => some (encodeAccount acc)
      | none => db.get (toAccountKey addr) := by
  have unchanged : (written ctd db).get (toAccountKey addr) =
      (writeAccountState ctd db).get (toAccountKey addr) := get_write_other_state ctd _ _
  rw [unchanged, get_writeAccountState_account, has_eq, kept]
  rfl

theorem get_written_data [TxOutCodec] {addr : Address} (pid : UInt8) (name : Bytes)
    (kept : ctd.deletedAccountMap.get addr = none) :
    (written ctd db).get (toAccountDataKey (accountDataKey addr pid name)) =
      if (ctd.deletedAccountDataMap.get (accountDataKey addr pid name)).isSome then none
      else (ctd.accountDataMap.get (accountDataKey addr pid name)).or
        (db.get (toAccountDataKey (accountDataKey addr pid name))) := by
  have unchanged : (written ctd db).get (toAccountDataKey (accountDataKey addr pid name)) =
      (writeAccountState ctd db).get (toAccountDataKey (accountDataKey addr pid name)) :=
    get_write_other_state ctd _ _
  rw [unchanged, accountDataKey, List.append_assoc,
    get_writeAccountState_data ctd db addr _ (by simp [kept]), has_eq]

omit [Account Acc] in
theorem encodeAccount_ne_mark (acc : Acc) : encodeAccount acc ≠ [0] := by
  intro same
  have length := congrArg List.length same
  simp only [encodeAccount, List.length_append, length_littleEndian, List.length_cons,
    List.length_nil] at length
  omega

omit [Account Acc] in
theorem account_of_encoded {addr : Address} {acc : Acc}
    (stored : db.get (toAccountKey addr) = some (encodeAccount acc)) :
    db.account addr = .ok acc ∧ db.hasAccount addr = .ok true := by
  have number : UInt16.ofNat (fromLittleEndian ((encodeAccount acc).take 2)) =
      AccountCodec.typeOf acc := by
    have first : (encodeAccount acc).take 2 = littleEndian 2 (AccountCodec.typeOf acc).toNat := by
      rw [encodeAccount, List.take_append_of_le_length (by simp), List.take_of_length_le (by simp)]
    have fits : (AccountCodec.typeOf acc).toNat < 256 ^ 2 := (AccountCodec.typeOf acc).toNat_lt
    rw [first, from_little_endian_of_fits fits]
    simp
  have fields : (encodeAccount acc).drop 2 = AccountCodec.marshal acc := by
    rw [encodeAccount, List.drop_append_of_le_length (by simp), List.drop_of_length_le (by simp),
      List.nil_append]
  constructor
  · simp only [account, stored, if_neg (encodeAccount_ne_mark acc)]
    rw [number, fields, AccountCodec.unmarshal_marshal]
  · simp only [hasAccount, stored, if_neg (encodeAccount_ne_mark acc)]

end Apply

theorem new_txin_id (id : UInt64) :
    (TxIn.mk (id >>> 32).toUInt32 (id >>> 16).toUInt16 id.toUInt16).id = id := by
  apply UInt64.eq_of_toBitVec_eq
  simp [TxIn.id, -UInt64.toUInt64_toUInt32, -UInt64.toUInt64_toUInt16]
  ext bit bound
  simp
  grind

theorem hasAccount_of_account [AccountCodec Acc] {db : Database} {addr : Address} {acc : Acc}
    (loaded : db.account addr = .ok acc) : db.hasAccount addr = .ok true := by
  unfold account at loaded
  unfold hasAccount
  cases stored : db.get (toAccountKey addr) with
  | none => simp [stored] at loaded
  | some value =>
    simp only [stored] at loaded ⊢
    split at loaded
    · cases loaded
    · rename_i unmarked
      rw [if_neg unmarked]

theorem utxo_id [TxOutCodec] {db : Database} {id : UInt64} {found : UTXO}
    (loaded : db.utxo id = .ok found) : found.id = id := by
  unfold utxo at loaded
  split at loaded
  · cases loaded
  · split at loaded
    · cases loaded
    · cases loaded
      exact new_txin_id id

end Database

end Fleta
