import Fleta.NameRegistry
import Fleta.DeletedAccounts

/-!
# The name registry over blocks

The register of names holds in every context and in every store that are reached by
operations which keep it: accounts are created at addresses that no layer has marked as
deleted, and deleted only while no lower layer and no stored block knows their name.
-/

namespace Fleta

open Overlay Context SortedMap Database ContextData

variable {Acc Ev : Type} [Account Acc]

structure Loader.NameRegistry (loader : Loader Acc) : Prop where
  named : ∀ name addr, loader.addressByName name = .ok addr →
    ∃ acc, loader.account addr = .ok acc ∧ Account.name acc = name
  hasAccountName : ∀ name, loader.hasAccountName name = .ok true ↔
    ∃ addr, loader.addressByName name = .ok addr
  unique : ∀ left right leftAcc rightAcc, loader.account left = .ok leftAcc →
    loader.account right = .ok rightAcc → Account.name leftAcc = Account.name rightAcc → left = right

/-- What keeps the register: no address is used again, no account is renamed, and the name
of a deleted account is known neither to a layer below the top nor to the loader. -/
def Op.KeepsRegister (ctx : Context Acc Ev) : Op Acc Ev → Prop
  | createAccount acc | createAccountIgnoreDelete acc =>
    ∀ layer ∈ ctx.top :: ctx.parents, layer.deletedAccountMap.has (Account.address acc) = false
  | deleteAccount acc =>
    ∀ found, (ctx.account (Account.address acc)).1 = .ok found →
      Account.name found = Account.name acc ∧
        (∀ layer ∈ ctx.parents, layer.accountNameMap.has (Account.name acc) = false) ∧
        ∀ addr, ctx.loader.addressByName (Account.name acc) ≠ .ok addr
  | updateAccount _ change => ∀ acc, Account.name (change acc) = Account.name acc
  | _ => True

omit [Account Acc] in
theorem Loader.find_unknown {loader : Loader Acc} {layers : List (ContextData Acc Ev)} {name : Bytes}
    (absent : ∀ layer ∈ layers, layer.accountNameMap.has name = false)
    (unknown : ∀ addr, loader.addressByName name ≠ .ok addr) : loader.find layers name = none := by
  induction layers with
  | nil =>
    change (loader.addressByName name).toOption = none
    cases resolved : loader.addressByName name with
    | error err => rfl
    | ok addr => exact absurd resolved (unknown addr)
  | cons layer lower ih =>
    have own := absent layer List.mem_cons_self
    rw [has_eq, Option.isSome_eq_false_iff, Option.isNone_iff_eq_none] at own
    rw [Loader.find_cons, own, Option.none_or]
    exact ih fun below member => absent below (List.mem_cons_of_mem _ member)

section Runs

variable [Base58] [Event Ev] {ctx : Context Acc Ev}

theorem Op.apply_registered (registered : ctx.Registered) {op : Op Acc Ev}
    (keeps : op.KeepsRegister ctx) : (op.apply ctx).Registered := by
  have reslotted : ∀ {after : Context Acc Ev}, ctx.Reslots after → after.Registered := by
    rintro _ ⟨cache, slots, agrees, _, rfl⟩
    exact registered.frame (registered.sound.reslot _ _ agrees) rfl rfl rfl
  cases op with
  | account addr => exact registered.account addr
  | updateAccount addr change => exact registered.updateAccount keeps
  | createAccount acc => exact registered.insertAccount _ keeps
  | createAccountIgnoreDelete acc => exact registered.insertAccount _ keeps
  | deleteAccount acc =>
    refine registered.deleteAccount fun name named => ?_
    rw [registered.sound.nameOf_eq] at named
    cases found : (ctx.account (Account.address acc)).1 with
    | error err =>
      rw [found] at named
      cases named
    | ok held =>
      rw [found] at named
      obtain ⟨same, absent, unknown⟩ := keeps held found
      have own : name = Account.name acc := (Option.some.inj named).symm.trans same
      rw [own]
      exact ⟨rfl, Loader.find_unknown absent unknown⟩
  | addressByName name => exact registered.addressByName name
  | accountData addr pid name =>
    have steps := accountData_steps registered.sound addr pid name
    exact registered.frame steps.sound steps.loader steps.parents
      (read_top_frame registryPart _ _ (fun _ _ => rfl) ctx)
  | processData pid name =>
    have steps := processData_steps registered.sound pid name
    exact registered.frame steps.sound steps.loader steps.parents
      (read_top_frame registryPart _ _ (fun _ _ => rfl) ctx)
  | utxo id =>
    have steps := utxo_steps registered.sound id
    exact registered.frame steps.sound steps.loader steps.parents
      (read_top_frame registryPart _ _ (fun _ _ => rfl) ctx)
  | setAccountData addr pid name value =>
    have steps := setAccountData_steps registered.sound addr pid name value
    refine registered.frame steps.sound steps.loader steps.parents ?_
    rw [Op.apply, Context.setAccountData, ContextData.setAccountData]
    split <;> rfl
  | setProcessData pid name value =>
    have steps := setProcessData_steps registered.sound pid name value
    refine registered.frame steps.sound steps.loader steps.parents ?_
    rw [Op.apply, Context.setProcessData, ContextData.setProcessData]
    split <;> rfl
  | createUTXO id vout =>
    have steps := createUTXO_steps registered.sound id vout
    refine registered.frame steps.sound steps.loader steps.parents ?_
    have read := read_top_frame registryPart (utxoSlot id)
      (ContextCache.utxo ctx.loader id) (fun _ _ => rfl) ctx.touch
    rcases createUTXO_outcome id vout ctx with ⟨err, _, failed⟩ | ⟨_, created⟩
    · rw [Op.apply, failed]
      exact read
    · rw [Op.apply, created]
      exact read
  | deleteUTXO spent =>
    have steps := deleteUTXO_steps registered.sound spent
    refine registered.frame steps.sound steps.loader steps.parents ?_
    have read := read_top_frame registryPart (utxoSlot spent.id)
      (ContextCache.utxo ctx.loader spent.id) (fun _ _ => rfl) ctx.touch
    rcases deleteUTXO_outcome spent ctx with ⟨err, _, failed⟩ | ⟨found, _, deleted⟩
    · rw [Op.apply, failed]
      exact read
    · rw [Op.apply, deleted]
      exact read
  | emitEvent event =>
    have steps := emitEvent_steps registered.sound event
    exact registered.frame steps.sound steps.loader steps.parents rfl
  | useTimeSlot slot key => exact reslotted (useTimeSlot_outcome registered.sound slot key)
  | hasTimeSlot slot key => exact reslotted (hasTimeSlot_outcome registered.sound slot key)
  | snapshot => exact registered.snapshot
  | revert sn => exact registered.revert sn
  | commit sn => exact registered.commit sn

def Op.KeepRegister : List (Op Acc Ev) → Context Acc Ev → Prop
  | [], _ => True
  | op :: rest, ctx => op.KeepsRegister ctx ∧ KeepRegister rest (op.apply ctx)

theorem Op.run_registered {ops : List (Op Acc Ev)} (registered : ctx.Registered)
    (keep : Op.KeepRegister ops ctx) : (Op.run ops ctx).Registered := by
  induction ops generalizing ctx with
  | nil => exact registered
  | cons op rest ih => exact ih (Op.apply_registered registered keep.1) keep.2

end Runs

namespace Database

variable [AccountCodec Acc]

def nameOf (Acc : Type) [Account Acc] [AccountCodec Acc] (db : Database) (addr : Address) :
    Option Bytes :=
  (db.account addr : Except Err Acc).toOption.map Account.name

/-- The address that is written under the key of a name. -/
def holderOf (db : Database) (name : Bytes) : Option Address :=
  (db.get (toAccountNameKey name)).map addressOf

structure Registered (Acc : Type) [Account Acc] [AccountCodec Acc] [Base58] (db : Database) :
    Prop where
  matched : Naming.Match (db.nameOf Acc) db.holderOf
  plain : ∀ addr name, db.nameOf Acc addr = some name → (Address.parse name).isOk = false

section Written

variable [TxOutCodec] (ctd : ContextData Acc Ev) (db : Database)

theorem get_written_name (name : Bytes) :
    (written ctd db).get (toAccountNameKey name) =
      (ctd.accountMap.eachAll.foldl writeAccount db).get (toAccountNameKey name) := by
  have unchanged : (written ctd db).get (toAccountNameKey name) =
      (writeAccountState ctd db).get (toAccountNameKey name) := get_write_other_state ctd _ _
  have datas : ∀ key, toAccountDataKey key ≠ toAccountNameKey name :=
    fun _ => tagged_ne rfl (by decide)
  have accounts : ∀ addr, toAccountKey addr ≠ toAccountNameKey name :=
    fun _ => tagged_ne rfl (by decide)
  have outside : ∀ addr : Address, ¬toAccountDataKey addr.bytes <+: toAccountNameKey name :=
    fun _ => tagged_outside rfl (by decide)
  rw [unchanged]
  unfold writeAccountState
  rw [get_foldl_frame _ _ fun map entry => get_delete_of_ne map (datas _),
    get_foldl_frame _ _ fun map entry => by
      rw [get_eraseAccount map entry _ (outside _), get_put_of_ne _ _ (accounts _)],
    get_foldl_frame _ _ fun map entry => get_put_of_ne map _ (datas _)]

omit [Account Acc] [AccountCodec Acc] [TxOutCodec] in
theorem toAccountNameKey_injective {left right : Bytes}
    (same : toAccountNameKey left = toAccountNameKey right) : left = right :=
  List.append_cancel_left same

omit [TxOutCodec] in
theorem get_writeAccount_name (entry : Address × Acc) (name : Bytes) :
    (writeAccount db entry).get (toAccountNameKey name) =
      if Account.name entry.2 = name then some entry.1.bytes
      else db.get (toAccountNameKey name) := by
  have accounts : toAccountKey entry.1 ≠ toAccountNameKey name := tagged_ne rfl (by decide)
  rw [writeAccount, get_put]
  by_cases same : Account.name entry.2 = name
  · rw [if_pos same, if_pos (congrArg toAccountNameKey same)]
  · rw [if_neg same, if_neg fun equal => same (toAccountNameKey_injective equal),
      get_put_of_ne _ _ accounts]

theorem holderOf_written_absent {name : Bytes}
    (absent : ∀ addr acc, ctd.accountMap.get addr = some acc → Account.name acc ≠ name) :
    (written ctd db).holderOf name = db.holderOf name := by
  rw [holderOf, holderOf, get_written_name, get_foldl_frame_mem]
  intro map entry member
  rw [get_writeAccount_name, if_neg]
  exact absent entry.1 entry.2 ((mem_eachAll _ _ _).mp member)

variable {addr : Address}

omit [TxOutCodec] in
theorem get_writeAccounts_name (entries : List (Address × Acc)) {name : Bytes}
    (only : ∀ entry ∈ entries, Account.name entry.2 = name → entry.1 = addr)
    (named : (∃ entry ∈ entries, Account.name entry.2 = name) ∨
      db.get (toAccountNameKey name) = some addr.bytes) :
    (entries.foldl writeAccount db).get (toAccountNameKey name) = some addr.bytes := by
  induction entries generalizing db with
  | nil =>
    rcases named with ⟨entry, member, _⟩ | held
    · cases member
    · exact held
  | cons first rest ih =>
    rw [List.foldl_cons]
    refine ih _ (fun entry member => only entry (List.mem_cons_of_mem _ member)) ?_
    rw [get_writeAccount_name]
    by_cases own : Account.name first.2 = name
    · rw [if_pos own, only first List.mem_cons_self own]
      exact .inr rfl
    · rw [if_neg own]
      rcases named with ⟨entry, member, same⟩ | held
      · rcases List.mem_cons.mp member with head | later
        · rw [head] at same
          exact absurd same own
        · exact .inl ⟨entry, later, same⟩
      · exact .inr held

theorem holderOf_written_held {acc : Acc} (held : ctd.accountMap.get addr = some acc)
    (only : ∀ other held', ctd.accountMap.get other = some held' →
      Account.name held' = Account.name acc → other = addr) :
    (written ctd db).holderOf (Account.name acc) = some addr := by
  have key := get_writeAccounts_name db ctd.accountMap.eachAll
    (fun entry member => only entry.1 entry.2 ((mem_eachAll _ _ _).mp member))
    (.inl ⟨(addr, acc), (mem_eachAll _ _ _).mpr held, rfl⟩)
  rw [holderOf, get_written_name, key]
  exact congrArg some (addressOf_bytes addr)

end Written

variable [TxOutCodec] [Base58] {db : Database} {addr : Address}

omit [Account Acc] [TxOutCodec] [Base58] in
theorem account_key {acc : Acc} (found : db.account addr = .ok acc) :
    ∃ value, db.get (toAccountKey addr) = some value ∧ value ≠ [0] := by
  unfold account at found
  split at found
  · cases found
  · rename_i value held
    split at found
    · cases found
    · rename_i other
      exact ⟨value, held, other⟩

variable {name : Bytes}

omit [TxOutCodec] in
theorem Registered.account_of_holder (registered : db.Registered Acc)
    (held : db.holderOf name = some addr) :
    ∃ acc : Acc, db.account addr = .ok acc ∧ Account.name acc = name := by
  have named := (registered.matched name addr).mp held
  unfold nameOf at named
  cases found : (db.account addr : Except Err Acc) with
  | error err =>
    rw [found] at named
    cases named
  | ok acc =>
    rw [found] at named
    exact ⟨acc, rfl, Option.some.inj named⟩

omit [TxOutCodec] in
theorem Registered.addressByName (registered : db.Registered Acc)
    (held : db.holderOf name = some addr) : db.addressByName name = .ok addr := by
  obtain ⟨acc, found, _⟩ := registered.account_of_holder held
  obtain ⟨value, key, live⟩ := account_key found
  unfold holderOf at held
  unfold Database.addressByName
  cases written : db.get (toAccountNameKey name) with
  | none =>
    rw [written] at held
    cases held
  | some bytes =>
    rw [written] at held
    have same : addressOf bytes = addr := Option.some.inj held
    dsimp only
    rw [same, key]
    exact if_neg live

omit [Account Acc] [AccountCodec Acc] [TxOutCodec] [Base58] in
theorem holderOf_of_addressByName
    (resolved : db.addressByName name = .ok addr) : db.holderOf name = some addr := by
  unfold addressByName at resolved
  unfold holderOf
  split at resolved
  · cases resolved
  · rename_i bytes written
    dsimp only at resolved
    split at resolved
    · cases resolved
    · split at resolved
      · cases resolved
      · rw [written]
        exact congrArg some (Except.ok.inj resolved)

section

variable (registered : db.Registered Acc)

include registered

variable (status : Status)

theorem Registered.find_eq :
    (db.toLoader status : Loader Acc).find ([] : List (ContextData Acc Ev)) = db.holderOf := by
  funext name
  change (db.addressByName name).toOption = db.holderOf name
  cases held : db.holderOf name with
  | some addr =>
    rw [registered.addressByName held]
    rfl
  | none =>
    cases resolved : db.addressByName name with
    | error err => rfl
    | ok addr =>
      rw [holderOf_of_addressByName resolved] at held
      cases held

theorem Registered.truthful : (db.toLoader status : Loader Acc).Truthful where
  existing := (toLoader_coherent status db).hasAccount
  names := by
    intro name addr resolved
    obtain ⟨acc, found, own⟩ := registered.account_of_holder (holderOf_of_addressByName resolved)
    have plain : (Address.parse name).isOk = false := by
      refine registered.plain addr name ?_
      rw [nameOf, found, ← own]
      rfl
    obtain ⟨value, key, live⟩ := account_key found
    have held := holderOf_of_addressByName resolved
    change db.hasAccountName name = .ok true
    unfold holderOf at held
    unfold hasAccountName
    rw [plain, if_neg Bool.false_ne_true]
    cases written : db.get (toAccountNameKey name) with
    | none =>
      rw [written] at held
      cases held
    | some bytes =>
      rw [written] at held
      have same : addressOf bytes = addr := Option.some.inj held
      dsimp only
      rw [same, key]
      exact if_neg live
  named := by
    intro name has
    change db.hasAccountName name = .ok true at has
    change ∃ addr, db.addressByName name = .ok addr
    unfold hasAccountName at has
    unfold Database.addressByName
    split at has
    · cases has
    split at has
    · cases has
    · rename_i bytes written
      split at has
      · cases has
      · rename_i value key
        split at has
        · cases has
        · rename_i live
          refine ⟨addressOf bytes, ?_⟩
          dsimp only
          rw [key]
          exact if_neg live

theorem Registered.newContext : (new (db.toLoader status) : Context Acc Ev).Registered where
  sound := Context.Sound.new _
  loader := registered.truthful status
  stack := by
    have empty : Context.StackRegistered (db.toLoader status : Loader Acc)
        ([] : List (ContextData Acc Ev)) := by
      refine ⟨List.Pairwise.nil, fun layer member => absurd member List.not_mem_nil,
        fun lower suffix => ?_⟩
      rw [List.suffix_nil.mp suffix]
      constructor
      · rw [registered.find_eq]
        exact registered.matched
      · exact registered.plain
    exact empty.pushNew none

end

theorem Registered.written (below : db.Registered Acc) {status : Status} {ctx : Context Acc Ev}
    (registered : ctx.Registered) (atop : ctx.loader = db.toLoader status)
    (single : ctx.parents = []) : (written ctx.top db).Registered Acc := by
  have whole := registered.whole
  rw [single] at whole
  have ground : ctx.loader.find ([] : List (ContextData Acc Ev)) = db.holderOf := by
    rw [atop]
    exact below.find_eq status
  have groundName : ctx.loader.nameOf ([] : List (ContextData Acc Ev)) = db.nameOf Acc := by
    rw [atop]
    rfl
  have nameOf : (Database.written ctx.top db).nameOf Acc = ctx.loader.nameOf [ctx.top] := by
    funext addr
    cases marked : ctx.top.deletedAccountMap.get addr with
    | some acc =>
      rw [Loader.nameOf_cons, has_eq, marked, Database.nameOf, Database.account,
        get_written_account_deleted marked]
      rfl
    | none =>
      have named := registered.sound.nameOf_eq addr
      rw [single] at named
      rw [named, Database.nameOf, stored_account registered.sound atop single marked]
  -- an account of the layer is one the context has
  have held : ∀ addr acc, ctx.top.accountMap.get addr = some acc →
      ctx.loader.nameOf [ctx.top] addr = some (Account.name acc) := by
    intro addr acc found
    have unmarked : ctx.top.deletedAccountMap.has addr = false := by
      refine Bool.eq_false_iff.mpr fun marked => ?_
      have absent : ctx.top.accountMap.get addr = none := registered.apart addr marked
      rw [absent] at found
      cases found
    rw [Loader.nameOf_cons, unmarked, found]
    rfl
  have unheld : ∀ addr name, ctx.loader.nameOf [ctx.top] addr = some name →
      (∀ other acc, ctx.top.accountMap.get other = some acc → Account.name acc ≠ name) →
      db.nameOf Acc addr = some name := by
    intro addr name named absent
    rw [Loader.nameOf_cons] at named
    cases found : ctx.top.accountMap.get addr with
    | some acc =>
      rw [found] at named
      split at named
      · cases named
      · exact absurd (Option.some.inj named) (absent addr acc found)
    | none =>
      rw [found] at named
      split at named
      · cases named
      · rw [← groundName]
        exact named
  constructor
  · intro name addr
    rw [nameOf]
    by_cases own : ∃ holder acc, ctx.top.accountMap.get holder = some acc ∧ Account.name acc = name
    · obtain ⟨holder, acc, found, named⟩ := own
      have bears := held holder acc found
      have key := holderOf_written_held ctx.top db found fun other held' found' same =>
        whole.matched.unique ((held other held' found').trans (congrArg some same)) bears
      rw [← named, key]
      constructor
      · intro same
        rw [← Option.some.inj same]
        exact bears
      · intro bearer
        rw [whole.matched.unique bears bearer]
    · have absent : ∀ other acc, ctx.top.accountMap.get other = some acc → Account.name acc ≠ name :=
        fun other acc found same => own ⟨other, acc, found, same⟩
      rw [holderOf_written_absent ctx.top db absent]
      constructor
      · intro holder
        -- the register of the context finds the bearer of the name, and no account of the layer
        have found : ∃ bearer, ctx.loader.find [ctx.top] name = some bearer := by
          rw [Loader.find_cons, ground, holder]
          cases ctx.top.accountNameMap.get name with
          | some bearer => exact ⟨bearer, rfl⟩
          | none => exact ⟨addr, rfl⟩
        obtain ⟨bearer, resolved⟩ := found
        have bears := (whole.matched name bearer).mp resolved
        have same := below.matched.unique (unheld bearer name bears absent)
          ((below.matched name addr).mp holder)
        rw [← same]
        exact bears
      · intro named
        exact (below.matched name addr).mpr (unheld addr name named absent)
  · intro addr name named
    rw [nameOf] at named
    exact whole.plain addr name named

end Database

namespace Context

variable [Base58] {ctx : Context Acc Ev}

theorem Registered.nameRegistry (registered : ctx.Registered) : ctx.toLoader.NameRegistry where
  named := by
    intro name addr resolved
    have found : ctx.loader.find (ctx.top :: ctx.parents) name = some addr := by
      rw [registered.sound.find_eq]
      exact congrArg Except.toOption resolved
    have named := (registered.whole.matched name addr).mp found
    rw [registered.sound.nameOf_eq] at named
    change ∃ acc, (ctx.account addr).1 = .ok acc ∧ _
    cases held : (ctx.account addr).1 with
    | error err =>
      rw [held] at named
      cases named
    | ok acc =>
      rw [held] at named
      exact ⟨acc, rfl, Option.some.inj named⟩
  hasAccountName := registered.hasAccountName_iff
  unique := by
    intro left right leftAcc rightAcc leftFound rightFound same
    have bears : ∀ addr acc, (ctx.account addr).1 = .ok acc →
        ctx.loader.nameOf (ctx.top :: ctx.parents) addr = some (Account.name acc) := by
      intro addr acc found
      rw [registered.sound.nameOf_eq, found]
      rfl
    exact registered.whole.matched.unique (bears left leftAcc leftFound)
      ((bears right rightAcc rightFound).trans (congrArg some same.symm))

end Context

namespace Database

variable [AccountCodec Acc] [TxOutCodec] [Base58] [Event Ev]

theorem Registered.nameRegistry {db : Database} (registered : db.Registered Acc) (status : Status) :
    (db.toLoader status : Loader Acc).NameRegistry where
  named _ _ resolved := registered.account_of_holder (holderOf_of_addressByName resolved)
  hasAccountName name := by
    have truthful := registered.truthful status
    constructor
    · exact truthful.named name
    · intro found
      obtain ⟨addr, resolved⟩ := found
      exact truthful.names name addr resolved
  unique := by
    intro left right leftAcc rightAcc leftFound rightFound same
    have bears : ∀ addr (acc : Acc), db.account addr = .ok acc →
        db.nameOf Acc addr = some (Account.name acc) := by
      intro addr acc found
      rw [nameOf, found]
      rfl
    exact registered.matched.unique (bears left leftAcc leftFound)
      ((bears right rightAcc rightFound).trans (congrArg some same.symm))

/-- The states of the database that blocks reach from an empty one: each applies the only
layer of a context over the state before, built by operations that keep the register. -/
inductive Reached (Acc Ev : Type) [Account Acc] [AccountCodec Acc] [TxOutCodec] [Base58] [Event Ev] :
    Database → Prop where
  | empty : Reached Acc Ev .empty
  | stored {db db' : Database} (status : Status) (ops : List (Op Acc Ev)) (reached : Reached Acc Ev db)
      (keep : Op.KeepRegister ops (new (db.toLoader status)))
      (single : (Op.run ops (new (db.toLoader status))).parents = [])
      (applied : applyContextData (Op.run ops (new (db.toLoader status))).top db = .ok db') :
      Reached Acc Ev db'

omit [TxOutCodec] in
theorem empty_registered : Registered Acc (empty : Database) where
  matched := by
    intro name addr
    simp [nameOf, holderOf, account, Except.toOption]
  plain := by
    intro addr name named
    simp [nameOf, account, Except.toOption] at named

theorem Reached.registered {db : Database} (reached : db.Reached Acc Ev) : db.Registered Acc := by
  induction reached with
  | empty => exact empty_registered
  | @stored db db' status ops _ keep single applied ih =>
    have ctx := Op.run_registered (ih.newContext status) keep
    have atop := (Op.run_keeps (Context.Sound.new (db.toLoader status)) ops).loader
    unfold applyContextData at applied
    split at applied
    · cases applied
    · cases applied
      exact ih.written ctx atop single

end Database

/-- The registry holds in every database that blocks reach and in every context that
operations build over it, if all of them keep the register. -/
theorem name_registry [AccountCodec Acc] [TxOutCodec] [Base58] [Event Ev] {db : Database}
    (reached : db.Reached Acc Ev) (status : Database.Status) (ops : List (Op Acc Ev))
    (keep : Op.KeepRegister ops (new (db.toLoader status))) :
    (db.toLoader status : Loader Acc).NameRegistry ∧
      (Op.run ops (new (db.toLoader status))).toLoader.NameRegistry := by
  have registered := reached.registered
  exact ⟨registered.nameRegistry status,
    (Op.run_registered (registered.newContext status) keep).nameRegistry⟩

open Instances

def namedAccount : SingleAccount := ⟨Address.new 1 1 0, [97], []⟩

def creatingContext : Context SingleAccount PlainEvent :=
  Op.run [.createAccount namedAccount] (new (toLoader someStatus .empty))

def namedDatabase : Database := written creatingContext.top .empty

theorem namedDatabase_reached : namedDatabase.Reached SingleAccount PlainEvent := by
  refine .stored someStatus [.createAccount namedAccount] .empty ⟨?_, trivial⟩ ?_ ?_
  · intro layer member
    rw [List.mem_singleton.mp member]
    exact has_eq _ _
  · decide +kernel
  · decide +kernel

/-- Over the stored account another one is created and deleted in the same layer, and its
name is taken again. -/
theorem name_registry_reused_name :
    let first : SingleAccount := ⟨Address.new 1 2 0, [98], []⟩
    let second : SingleAccount := ⟨Address.new 1 3 0, [98], []⟩
    let ops : List (Op SingleAccount PlainEvent) :=
      [.createAccount first, .deleteAccount first, .createAccount second]
    (namedDatabase.toLoader someStatus : Loader SingleAccount).NameRegistry ∧
      (Op.run ops (new (namedDatabase.toLoader someStatus))).toLoader.NameRegistry := by
  intro first second ops
  refine name_registry namedDatabase_reached someStatus ops ⟨?_, ?_, ?_, trivial⟩
  · rw [Op.KeepsRegister]
    decide +kernel
  · intro found loaded
    have same : found = first := by
      have read : ((Op.run [.createAccount first] (new (namedDatabase.toLoader someStatus)) :
          Context SingleAccount PlainEvent).account (Account.address first)).1 = .ok first := by
        decide +kernel
      exact Except.ok.inj (loaded.symm.trans read)
    have unknown : namedDatabase.addressByName [98] = .error .notExistAccount := by decide +kernel
    rw [same]
    refine ⟨rfl, by decide +kernel, fun addr resolved => ?_⟩
    cases unknown.symm.trans resolved
  · rw [Op.KeepsRegister]
    decide +kernel

/-- The name of a stored account that is deleted still leads to it. -/
theorem name_registry_broken_by_deletion :
    ¬(Op.run [.deleteAccount namedAccount] (new (namedDatabase.toLoader someStatus)) :
      Context SingleAccount PlainEvent).toLoader.NameRegistry := by
  intro registry
  obtain ⟨acc, found, _⟩ := registry.named [97] (Address.new 1 1 0) (by decide +kernel)
  have gone : (Op.run [.deleteAccount namedAccount] (new (namedDatabase.toLoader someStatus)) :
      Context SingleAccount PlainEvent).toLoader.account (Address.new 1 1 0) =
        .error .deletedAccount := by
    decide +kernel
  rw [gone] at found
  cases found

end Fleta
