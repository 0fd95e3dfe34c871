import Fleta.ContextUndo
import Fleta.NextContext

/-!
# The remembered context hash

`Hash` computes the context hash once and answers from memory until an operation clears
the mark. Most operations clear it. The reads other than `Account` and `SetProcessData` do
not, although a read puts a copy of what it found into a hashed map of the top layer; nor
does a change through the pointer to an account. The remembered hash is right as long as
each of those meets a hash that is not taken yet, or leaves the hashed data as they are.
-/

namespace Fleta

open Overlay Context ContextData

variable {Acc Ev : Type}

def ContextData.hashed (ctd : ContextData Acc Ev) : ContextData Acc Ev :=
  { ctd with timeSlotMap := .empty, eventN := 0, isTop := false }

namespace Op

def clears : Op Acc Ev → Bool
  | account _ | updateAccount _ _ | createAccount _ | createAccountIgnoreDelete _
  | deleteAccount _ | setAccountData _ _ _ _ | createUTXO _ _ | deleteUTXO _ | emitEvent _
  | snapshot | revert _ | commit _ => true
  | addressByName _ | accountData _ _ _ | processData _ _ | setProcessData _ _ _ | utxo _
  | useTimeSlot _ _ | hasTimeSlot _ _ => false

end Op

namespace Context

/-- A read leaves the top layer: the layer is sealed, it knows the key itself, or neither
the layers nor what is below them, which answers `base`, have a value to copy. -/
def CopiesNothing {Value Result : Type} (slot : Slot Acc Ev Value Result) (base : Result)
    (ctx : Context Acc Ev) : Prop :=
  ctx.top.isTop = false ∨ (slot.layer ctx.top).answer ≠ .silent ∨
    slot.found (ctx.answer slot base) = none

def SaysProcessData (key value : Bytes) (ctx : Context Acc Ev) : Prop :=
  if value.length = 0 then
    ctx.top.processDataMap.get key = none ∧ ctx.top.deletedProcessDataMap.get key = some true
  else
    ctx.top.processDataMap.get key = some value ∧ ctx.top.deletedProcessDataMap.get key = none

end Context

def Op.LeavesHashed (ctx : Context Acc Ev) : Op Acc Ev → Prop
  | addressByName name =>
    ctx.CopiesNothing (accountNameSlot name)
      (ctx.cache.addressByName ctx.loader name).1
  | accountData addr pid name =>
    ctx.CopiesNothing (accountDataSlot (accountDataKey addr pid name))
      (ctx.cache.accountData ctx.loader addr pid name).1
  | processData pid name =>
    ctx.CopiesNothing (processDataSlot (processDataKey pid name))
      (ctx.cache.processData ctx.loader pid name).1
  | utxo id =>
    ctx.CopiesNothing (utxoSlot id) (ctx.cache.utxo ctx.loader id).1
  | setProcessData pid name value => ctx.SaysProcessData (processDataKey pid name) value
  | _ => True

namespace Context

/-- What a change of the context does to the remembered hash. -/
structure Clears (before after : Context Acc Ev) : Prop where
  env : after.env = before.env
  isLatestHash : after.isLatestHash = false

structure Remembers (before after : Context Acc Ev) : Prop where
  env : after.env = before.env
  isLatestHash : after.isLatestHash = before.isLatestHash
  dataHash : after.dataHash = before.dataHash

variable (ctx : Context Acc Ev)

theorem changeHeld_remembers (depth : Nat) (addr : Address) (update : Acc → Acc)
    (ctx : Context Acc Ev) : ctx.Remembers (ctx.changeHeld 0 depth addr update) := by
  cases depth with
  | zero => exact ⟨rfl, rfl, rfl⟩
  | succ depth =>
    rw [changeHeld]
    split <;> exact ⟨rfl, rfl, rfl⟩

variable (slot : UInt32)

theorem useTimeSlot_remembers (key : Bytes) : ctx.Remembers (ctx.useTimeSlot slot key).2 := by
  unfold useTimeSlot
  split <;> exact ⟨rfl, rfl, rfl⟩

theorem hasTimeSlot_remembers (key : Bytes) : ctx.Remembers (ctx.hasTimeSlot slot key).2 := by
  unfold hasTimeSlot
  split <;> exact ⟨rfl, rfl, rfl⟩

end Context

section Operations

variable [Account Acc] [Event Ev] [Base58] (ctx : Context Acc Ev) {op : Op Acc Ev}

theorem Op.apply_clears (clearing : op.clears = true) : ctx.Clears (op.apply ctx) := by
  have inserted : ∀ tolerated acc, ctx.Clears (ctx.insertAccount tolerated acc).2 := by
    intro tolerated acc
    rcases insertAccount_outcome tolerated acc ctx with ⟨err, same⟩ | ⟨_, same⟩ <;>
    · rw [same]
      exact ⟨rfl, rfl⟩
  cases op with
  | updateAccount addr change =>
    rcases updateAccount_outcome addr change ctx with ⟨err, _, same⟩ | ⟨found, _, same⟩ <;>
    · rw [apply, same]
      exact ⟨rfl, rfl⟩
  | createAccount acc => exact inserted _ acc
  | createAccountIgnoreDelete acc => exact inserted _ acc
  | deleteAccount acc =>
    rcases deleteAccount_outcome acc ctx with ⟨err, _, same⟩ | ⟨found, _, same⟩ <;>
    · rw [apply, same]
      exact ⟨rfl, rfl⟩
  | createUTXO id vout =>
    rcases createUTXO_outcome id vout ctx with ⟨err, _, same⟩ | ⟨_, same⟩ <;>
    · rw [apply, same]
      exact ⟨rfl, rfl⟩
  | deleteUTXO spent =>
    rcases deleteUTXO_outcome spent ctx with ⟨err, _, same⟩ | ⟨found, _, same⟩ <;>
    · rw [apply, same]
      exact ⟨rfl, rfl⟩
  | account | setAccountData | emitEvent | snapshot | revert | commit => exact ⟨rfl, rfl⟩
  | _ => cases clearing

theorem Op.apply_remembers (silent : op.clears = false) : ctx.Remembers (op.apply ctx) := by
  cases op with
  | useTimeSlot slot key => exact ctx.useTimeSlot_remembers slot key
  | hasTimeSlot slot key => exact ctx.hasTimeSlot_remembers slot key
  | addressByName | accountData | processData | setProcessData | utxo => exact ⟨rfl, rfl, rfl⟩
  | _ => cases silent

end Operations

namespace SortedMap

variable {Key Value : Type} [Ord Key] [Std.TransOrd Key] [Std.LawfulEqOrd Key]
  (map : SortedMap Key Value)

theorem put_eq_self_iff (key : Key) (value : Value) :
    map.put key value = map ↔ map.get key = some value := by
  classical
  constructor
  · intro same
    rw [← same, get_put_self]
  · intro held
    refine ext_get fun other => ?_
    rw [get_put]
    split
    · rename_i equal
      rw [← equal, held]
    · rfl

theorem delete_eq_self_iff (key : Key) : map.delete key = map ↔ map.get key = none := by
  classical
  constructor
  · intro same
    rw [← same, get_delete_self]
  · intro absent
    refine ext_get fun other => ?_
    rw [get_delete]
    split
    · rename_i equal
      rw [← equal, absent]
    · rfl

end SortedMap

namespace Context

theorem read_hashed_iff {Value Result : Type} (slot : Slot Acc Ev Value Result)
    (below : ContextCache Acc → Result × ContextCache Acc) (ctx : Context Acc Ev)
    (copies : ∀ value, (slot.layer ctx.top).answer = .silent →
      (slot.keep value ctx.top).hashed ≠ ctx.top.hashed) :
    (ctx.read slot below).2.top.hashed = ctx.top.hashed ↔
      ctx.CopiesNothing slot (below ctx.cache).1 := by
  have top : (ctx.read slot below).2.top =
      kept slot (ctx.answer slot (below ctx.cache).1) ctx.top := by
    rw [← read_fst slot below ctx]
    exact read_top slot below ctx.top ctx.parents ctx.cache
  rw [top, CopiesNothing, kept, keepFound]
  generalize ctx.answer slot (below ctx.cache).1 = result
  cases known : (slot.layer ctx.top).answer with
  | deleted => simp
  | value value => simp
  | silent =>
    cases found : slot.found result with
    | none => simp
    | some value => cases isTop : ctx.top.isTop <;> simp [copies value known]

theorem put_ne_of_absent {Key Value : Type} [Ord Key] [Std.TransOrd Key] [Std.LawfulEqOrd Key]
    {map : SortedMap Key Value} {key : Key} (value : Value) (absent : map.get key = none) :
    map.put key value ≠ map := by
  rw [Ne, SortedMap.put_eq_self_iff, absent]
  exact (Option.some_ne_none value).symm

theorem setProcessData_hashed_iff (pid : UInt8) (name value : Bytes) (ctx : Context Acc Ev) :
    (ctx.setProcessData pid name value).top.hashed = ctx.top.hashed ↔
      ctx.SaysProcessData (processDataKey pid name) value := by
  unfold setProcessData SaysProcessData ContextData.setProcessData ContextData.hashed
  by_cases empty : value.length = 0
  · simp [empty, SortedMap.put_eq_self_iff, SortedMap.delete_eq_self_iff]
  · simp [empty, SortedMap.put_eq_self_iff, SortedMap.delete_eq_self_iff, and_comm]

end Context

/-- Among the operations that keep the remembered hash, those that leave the hashed part of
the top layer are known before the operation. -/
theorem Op.apply_hashed_iff [Account Acc] [Event Ev] [Base58] (ctx : Context Acc Ev)
    {op : Op Acc Ev} (silent : op.clears = false) :
    (op.apply ctx).top.hashed = ctx.top.hashed ↔ op.LeavesHashed ctx := by
  cases op with
  | addressByName name =>
    refine read_hashed_iff _ _ ctx fun value absent same => ?_
    exact put_ne_of_absent value (Slot.value_of_silent absent) (congrArg accountNameMap same)
  | accountData addr pid name =>
    refine read_hashed_iff _ _ ctx fun value absent same => ?_
    exact put_ne_of_absent value (Slot.value_of_silent absent) (congrArg accountDataMap same)
  | processData pid name =>
    refine read_hashed_iff _ _ ctx fun value absent same => ?_
    exact put_ne_of_absent value (Slot.value_of_silent absent) (congrArg processDataMap same)
  | utxo id =>
    refine read_hashed_iff _ _ ctx fun value absent same => ?_
    exact put_ne_of_absent value (Slot.value_of_silent absent) (congrArg utxoMap same)
  | setProcessData pid name value => exact setProcessData_hashed_iff pid name value ctx
  | useTimeSlot slot key =>
    refine ⟨fun _ => trivial, fun _ => ?_⟩
    rw [Op.apply, Context.useTimeSlot]
    split <;> rfl
  | hasTimeSlot slot key =>
    refine ⟨fun _ => trivial, fun _ => ?_⟩
    rw [Op.apply, Context.hasTimeSlot]
    split
    · rfl
    · dsimp only
      split <;> rfl
  | _ => cases silent

/-- What is done with a context: an operation, a change of an account that was handed out
earlier and that the layer `depth` below the top holds now, a call of `Hash`, or the
`NextContext` that seals it. -/
inductive Use (Acc Ev : Type) where
  | operate (op : Op Acc Ev)
  | change (depth : Nat) (addr : Address) (update : Acc → Acc)
  | hash
  | nextContext

/-- The use clears the remembered hash, comes before it is taken, or leaves the hashed
data. -/
def Use.Settled (ctx : Context Acc Ev) : Use Acc Ev → Prop
  | operate op => op.clears = true ∨ ctx.isLatestHash = false ∨ op.LeavesHashed ctx
  | change 0 addr update =>
    ctx.isLatestHash = false ∨
      ∀ acc, ctx.top.accountMap.get addr = some acc → update acc = acc
  | change (_ + 1) _ _ => True
  | hash => True
  | nextContext => True

theorem ContextData.changeAccount_hashed_iff (addr : Address) (change : Acc → Acc)
    (ctd : ContextData Acc Ev) :
    (ctd.changeAccount addr change).hashed = ctd.hashed ↔
      ∀ acc, ctd.accountMap.get addr = some acc → change acc = acc := by
  unfold changeAccount hashed
  cases held : ctd.accountMap.get addr with
  | none => simp
  | some acc =>
    simp only [mk.injEq, SortedMap.put_eq_self_iff, held, Option.some.injEq, and_true]
    exact ⟨fun same other equal => equal ▸ same.symm, fun fixed => (fixed acc rfl).symm⟩

section Hash

variable [HashFunction] [Msgpack] [AccountCodec Acc] [TxOutCodec] [EventCodec Ev]

namespace Context

def recomputed (ctx : Context Acc Ev) : Hash256 := hashes [ctx.genLastHash, ctx.top.hash ctx.env]

def Memoised (ctx : Context Acc Ev) : Prop :=
  ctx.isLatestHash = true → ctx.dataHash = ctx.recomputed

variable {before after : Context Acc Ev}

theorem recomputed_eq (env : after.env = before.env)
    (hashed : after.top.hashed = before.top.hashed) : after.recomputed = before.recomputed := by
  have position : after.genLastHash = before.genLastHash := congrArg Env.lastHash env
  have layer : after.top.hash after.env = before.top.hash before.env := by
    rw [env]
    change after.top.hashed.hash before.env = before.top.hashed.hash before.env
    rw [hashed]
  rw [recomputed, recomputed, position, layer]

variable {ctx : Context Acc Ev}

theorem Memoised.hash_eq (memoised : ctx.Memoised) : ctx.hash.1 = ctx.recomputed := by
  unfold hash
  split
  · rename_i latest
    exact memoised latest
  · rfl

theorem Memoised.hash (memoised : ctx.Memoised) : ctx.hash.2.Memoised := by
  unfold Context.hash
  split
  · exact memoised
  · intro _
    rfl

theorem Memoised.of_unhashed (unhashed : ctx.isLatestHash = false) : ctx.Memoised := by
  intro latest
  rw [unhashed] at latest
  cases latest

theorem Memoised.remembers (memoised : before.Memoised) (remembers : before.Remembers after)
    (hashed : before.isLatestHash = true → after.top.hashed = before.top.hashed) :
    after.Memoised := by
  intro latest
  have taken : before.isLatestHash = true := remembers.isLatestHash ▸ latest
  rw [remembers.dataHash, memoised taken, recomputed_eq remembers.env (hashed taken)]

end Context

namespace Use

variable [Account Acc] [Event Ev] [Base58]

def apply (ctx : Context Acc Ev) : Use Acc Ev → Context Acc Ev
  | operate op => op.apply ctx
  | change depth addr update => ctx.changeHeld 0 depth addr update
  | hash => ctx.hash.2
  | nextContext => ctx.sealed

def run (uses : List (Use Acc Ev)) (ctx : Context Acc Ev) : Context Acc Ev := uses.foldl apply ctx

def SettledRun : List (Use Acc Ev) → Context Acc Ev → Prop
  | [], _ => True
  | use :: rest, ctx => use.Settled ctx ∧ SettledRun rest (use.apply ctx)

theorem settled_iff (ctx : Context Acc Ev) (use : Use Acc Ev) (proper : use ≠ hash) :
    use.Settled ctx ↔
      (use.apply ctx).isLatestHash = false ∨ (use.apply ctx).top.hashed = ctx.top.hashed := by
  cases use with
  | hash => exact absurd rfl proper
  | nextContext => exact ⟨fun _ => .inr rfl, fun _ => trivial⟩
  | change depth addr update =>
    cases depth with
    | zero =>
      exact or_congr .rfl (changeAccount_hashed_iff addr update ctx.top).symm
    | succ depth =>
      refine ⟨fun _ => .inr ?_, fun _ => trivial⟩
      rw [apply, changeHeld]
      split <;> rfl
  | operate op =>
    cases clearing : op.clears with
    | true =>
      have cleared := Op.apply_clears ctx clearing
      exact ⟨fun _ => .inl cleared.isLatestHash, fun _ => .inl clearing⟩
    | false =>
      rw [apply, (Op.apply_remembers ctx clearing).isLatestHash, Op.apply_hashed_iff ctx clearing]
      simp [Settled, clearing]

variable {ctx : Context Acc Ev}

theorem apply_memoised {use : Use Acc Ev} (memoised : ctx.Memoised)
    (settled : use.Settled ctx) : (use.apply ctx).Memoised := by
  cases use with
  | hash => exact memoised.hash
  | nextContext => exact memoised.remembers ⟨rfl, rfl, rfl⟩ fun _ => rfl
  | change depth addr update =>
    have remembers := changeHeld_remembers depth addr update ctx
    refine memoised.remembers remembers fun taken => ?_
    rcases (settled_iff ctx (change depth addr update) (by simp)).mp settled with cleared | same
    · rw [apply, remembers.isLatestHash, taken] at cleared
      cases cleared
    · exact same
  | operate op =>
    cases clearing : op.clears with
    | true => exact Context.Memoised.of_unhashed (Op.apply_clears ctx clearing).isLatestHash
    | false =>
      have remembers := Op.apply_remembers ctx clearing
      refine memoised.remembers remembers fun taken => ?_
      rcases (settled_iff ctx (operate op) (by simp)).mp settled with cleared | same
      · rw [apply, remembers.isLatestHash, taken] at cleared
        cases cleared
      · exact same

theorem run_memoised {uses : List (Use Acc Ev)} (memoised : ctx.Memoised)
    (settled : SettledRun uses ctx) : (run uses ctx).Memoised := by
  induction uses generalizing ctx with
  | nil => exact memoised
  | cons use rest ih => exact ih (apply_memoised memoised settled.1) settled.2

end Use

/-- `Hash` gives the recomputed value after every run of settled uses of a context whose
hash was not taken before. -/
theorem Context.hash_recomputed [Account Acc] [Event Ev] [Base58] (start : Context Acc Ev)
    (unhashed : start.isLatestHash = false) (uses : List (Use Acc Ev))
    (settled : Use.SettledRun uses start) :
    (Use.run uses start).hash.1 = (Use.run uses start).recomputed :=
  (Use.run_memoised (Context.Memoised.of_unhashed unhashed) settled).hash_eq

end Hash

open Instances

/-- Data are set before the hash is taken, an account is created, and the data are read in
the layer that holds them after the hash was taken again. -/
theorem hash_recomputed_after_creation :
    let acc : SingleAccount := ⟨Address.new 1 1 0, [97], []⟩
    let uses : List (Use SingleAccount PlainEvent) :=
      [.operate (.setProcessData 1 [0] [7]), .hash, .operate (.createAccount acc), .hash,
        .operate (.processData 1 [0])]
    (Use.run uses (new emptyLoader)).hash.1 = (Use.run uses (new emptyLoader)).recomputed := by
  refine hash_recomputed _ rfl _ ?_
  refine ⟨.inr (.inl rfl), trivial, .inl rfl, trivial, .inr (.inr (.inr (.inl ?_))),
    trivial⟩
  intro silent
  cases silent

/-- Data set after the hash was taken are not covered by the hash that `Hash` returns. -/
theorem hash_stale_after_setProcessData : let uses : List (Use SingleAccount PlainEvent) :=
      [.operate (.setProcessData 1 [0] [7]), .hash, .operate (.setProcessData 1 [0] [8])]
    (Use.run uses (new emptyLoader)).hash.1 ≠ (Use.run uses (new emptyLoader)).recomputed := by
  decide +kernel

end Fleta
