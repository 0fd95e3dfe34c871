import Fleta.ContextCommit

/-!
# Revert undoes what was done since its snapshot

What happens after `Snapshot` happens in the layers above it: the operations work in the
top layer, nested snapshots come and go above, and an account that is handed out is a copy
in one of these layers, so that a change through its pointer stays there. `Revert` drops
them. Only the cache has changed then, and it answers as the loader does.
-/

namespace Fleta

open ContextData ContextCache List

variable {Acc Ev : Type}

/-- A change of an account that the layer holds, through the pointer to it. -/
def ContextData.changeAccount (addr : Address) (change : Acc → Acc) (ctd : ContextData Acc Ev) :
    ContextData Acc Ev :=
  match ctd.accountMap.get addr with
  | some acc => { ctd with accountMap := ctd.accountMap.put addr (change acc) }
  | none => ctd

/-- What may follow a snapshot: an operation, or the change of an account that was handed
out since, and that the layer `depth` below the top holds now. -/
inductive Action (Acc Ev : Type) where
  | operate (op : Op Acc Ev)
  | change (depth : Nat) (addr : Address) (update : Acc → Acc)

/-- Only nested snapshots are reverted or committed. -/
def Op.Within (sn : Nat) : Op Acc Ev → Prop
  | revert inner | commit inner => sn < inner
  | _ => True

def Action.Within (sn : Nat) : Action Acc Ev → Prop
  | operate op => op.Within sn
  | change _ _ _ => True

theorem modify_append_left {α : Type} {upper : List α} {place : Nat} (inside : place < upper.length)
    (lower : List α) (change : α → α) :
    (upper ++ lower).modify place change = upper.modify place change ++ lower := by
  induction upper generalizing place with
  | nil => exact absurd inside (Nat.not_lt_zero _)
  | cons head rest ih =>
    cases place with
    | zero => rfl
    | succ place =>
      rw [cons_append, modify_succ_cons, modify_succ_cons,
        ih (Nat.lt_of_succ_lt_succ inside), cons_append]

namespace ContextData

theorem changeAccount_isTop (addr : Address) (change : Acc → Acc) (ctd : ContextData Acc Ev) :
    (ctd.changeAccount addr change).isTop = ctd.isTop := by
  unfold changeAccount
  split <;> rfl

theorem Tidy.changeAccount {ctd : ContextData Acc Ev} {loader : Loader Acc} (tidy : ctd.Tidy loader)
    (addr : Address) (change : Acc → Acc) : (ctd.changeAccount addr change).Tidy loader := by
  unfold ContextData.changeAccount
  split
  · exact { tidy with }
  · exact tidy

theorem revertLoop_append (ctd : ContextData Acc Ev) (upper : List (ContextData Acc Ev))
    (layer : ContextData Acc Ev) (lower : List (ContextData Acc Ev)) :
    revertLoop (lower.length + 2) ctd (upper ++ layer :: lower) = (layer, lower) := by
  have stop : revertLoop (lower.length + 2) layer lower = (layer, lower) := by
    cases lower with
    | nil => rfl
    | cons parent rest =>
      rw [revertLoop, if_neg]
      rw [length_cons]
      omega
  induction upper generalizing ctd with
  | nil =>
    rw [nil_append, revertLoop, if_pos (Nat.le_refl _)]
    exact stop
  | cons parent rest ih =>
    rw [cons_append, revertLoop, if_pos]
    · exact ih parent
    · rw [length_append, length_cons]
      omega

end ContextData

namespace Context

def changeHeld (sn depth : Nat) (addr : Address) (change : Acc → Acc) (ctx : Context Acc Ev) :
    Context Acc Ev :=
  match depth with
  | 0 => { ctx with top := ctx.top.changeAccount addr change }
  | depth + 1 =>
    if depth + sn < ctx.stackSize then
      { ctx with parents := ctx.parents.modify depth (changeAccount addr change) }
    else ctx

end Context

section Actions

variable [Account Acc] [Event Ev] [Base58]

def Action.apply (sn : Nat) (ctx : Context Acc Ev) : Action Acc Ev → Context Acc Ev
  | operate op => op.apply ctx
  | change depth addr update => ctx.changeHeld sn depth addr update

def Action.run (sn : Nat) (actions : List (Action Acc Ev)) (ctx : Context Acc Ev) : Context Acc Ev :=
  actions.foldl (Action.apply sn) ctx

end Actions

namespace Context

structure Above (base inner : Context Acc Ev) : Prop extends base.Keeps inner where
  genLastHash : inner.genLastHash = base.genLastHash
  genTimestamp : inner.genTimestamp = base.genTimestamp
  dataHash : inner.dataHash = base.dataHash
  parents : ∃ upper, inner.parents = upper ++ { base.top with isTop := false } :: base.parents

namespace Above

variable {base inner inner' : Context Acc Ev}

theorem snapshot_self (sound : base.Sound) : base.Above base.snapshot.2 where
  sound := sound.snapshot
  loader := rfl
  genTargetHeight := rfl
  genLastHash := rfl
  genTimestamp := rfl
  dataHash := rfl
  parents := ⟨[], rfl⟩

variable (above : base.Above inner)

include above

theorem step (steps : inner.Steps inner') : base.Above inner' where
  sound := steps.sound
  loader := steps.loader.trans above.loader
  genTargetHeight := steps.genTargetHeight.trans above.genTargetHeight
  genLastHash := steps.genLastHash.trans above.genLastHash
  genTimestamp := steps.genTimestamp.trans above.genTimestamp
  dataHash := steps.dataHash.trans above.dataHash
  parents := by
    rw [steps.parents]
    exact above.parents

theorem restack (sound : inner'.Sound)
    (same : inner' = { inner with
      cache := inner'.cache, top := inner'.top, parents := inner'.parents,
      isLatestHash := inner'.isLatestHash })
    (parents : ∃ upper, inner'.parents = upper ++ { base.top with isTop := false } :: base.parents) :
    base.Above inner' where
  sound := sound
  loader := by
    rw [same]
    exact above.loader
  genTargetHeight := by
    rw [same]
    exact above.genTargetHeight
  genLastHash := by
    rw [same]
    exact above.genLastHash
  genTimestamp := by
    rw [same]
    exact above.genTimestamp
  dataHash := by
    rw [same]
    exact above.dataHash
  parents := parents

theorem snapshot : base.Above inner.snapshot.2 := by
  obtain ⟨upper, stack⟩ := above.parents
  refine above.restack above.sound.snapshot rfl ⟨{ inner.top with isTop := false } :: upper, ?_⟩
  change { inner.top with isTop := false } :: inner.parents = _
  rw [stack]
  rfl

variable {sn : Nat}

theorem drop (nested : base.snapshot.1 < sn) :
    ∃ upper, inner.parents.drop (inner.parents.length + 2 - sn) =
      upper ++ { base.top with isTop := false } :: base.parents := by
  obtain ⟨upper, stack⟩ := above.parents
  have few : inner.parents.length + 2 - sn ≤ upper.length := by
    have number : base.snapshot.1 = base.parents.length + 2 := rfl
    rw [stack, length_append, length_cons]
    omega
  refine ⟨upper.drop (inner.parents.length + 2 - sn), ?_⟩
  rw [stack] at few ⊢
  exact drop_append_of_le_length few

theorem revert (nested : base.snapshot.1 < sn) : base.Above (inner.revert sn) := by
  refine above.restack (above.sound.revert sn) rfl ?_
  change ∃ upper, (revertLoop sn inner.top inner.parents).2 = _
  rw [revertLoop_parents]
  exact above.drop nested

theorem commit (nested : base.snapshot.1 < sn) : base.Above (inner.commit sn) := by
  refine above.restack (above.sound.commit sn) rfl ?_
  change ∃ upper, (commitLoop sn inner.top inner.parents).2 = _
  rw [commitLoop_parents]
  exact above.drop nested

theorem changeHeld (depth : Nat) (addr : Address) (change : Acc → Acc) :
    base.Above (inner.changeHeld base.snapshot.1 depth addr change) := by
  obtain ⟨upper, stack⟩ := above.parents
  cases depth with
  | zero =>
    refine above.restack ⟨?_, above.sound.lower, ?_, above.sound.agrees⟩ rfl above.parents
    · exact (changeAccount_isTop addr change inner.top).trans above.sound.top
    · exact forall_mem_cons.mpr
        ⟨above.sound.tidyTop.changeAccount addr change, above.sound.tidyLower⟩
  | succ depth =>
    rw [Context.changeHeld]
    split
    · rename_i inside
      have room : depth < upper.length := by
        have number : base.snapshot.1 = base.parents.length + 2 := rfl
        rw [stackSize, stack, length_append, length_cons] at inside
        omega
      have changed : ∀ layer ∈ inner.parents.modify depth (changeAccount addr change),
          layer.isTop = false ∧ layer.Tidy inner.loader := by
        intro layer listed
        obtain ⟨i, bound, rfl⟩ := mem_iff_getElem.mp listed
        rw [length_modify] at bound
        have own := getElem_mem bound
        have tidy := above.sound.tidyLower _ own
        rw [getElem_modify]
        split
        · exact ⟨(changeAccount_isTop addr change _).trans (above.sound.lower _ own),
            tidy.changeAccount addr change⟩
        · exact ⟨above.sound.lower _ own, tidy⟩
      refine above.restack ⟨above.sound.top, fun layer listed => (changed layer listed).1,
        forall_mem_cons.mpr ⟨above.sound.tidyTop, fun layer listed => (changed layer listed).2⟩,
        above.sound.agrees⟩ rfl ⟨upper.modify depth (changeAccount addr change), ?_⟩
      rw [stack]
      exact modify_append_left room _ _
    · exact above

theorem undone (isTop : base.top.isTop = true) :
    inner.revert base.snapshot.1 = { base.touch with cache := inner.cache } := by
  obtain ⟨upper, stack⟩ := above.parents
  have loop : revertLoop base.snapshot.1 inner.top inner.parents =
      ({ base.top with isTop := false }, base.parents) := by
    rw [stack]
    exact revertLoop_append inner.top upper _ base.parents
  have top : ({ base.top with isTop := true } : ContextData Acc Ev) = base.top := by
    rw [← isTop]
  unfold Context.revert
  rw [loop]
  simp only [touch, top, above.loader, above.genTargetHeight, above.genLastHash, above.genTimestamp,
    above.dataHash]

end Above

end Context

section Actions

variable [Account Acc] [Event Ev] [Base58] {base inner : Context Acc Ev}

theorem Op.apply_above (above : base.Above inner) {op : Op Acc Ev} (nested : op.Within base.snapshot.1) :
    base.Above (op.apply inner) := by
  rcases op.apply_cases above.sound with
    steps | ⟨cache, slots, agrees, _, same⟩ | rfl | ⟨sn, rfl⟩ | ⟨sn, rfl⟩
  · exact above.step steps
  · rw [same]
    exact above.restack (above.sound.reslot _ _ agrees) rfl above.parents
  · exact above.snapshot
  · exact above.revert nested
  · exact above.commit nested

theorem Action.run_above (above : base.Above inner) {actions : List (Action Acc Ev)}
    (nested : ∀ action ∈ actions, action.Within base.snapshot.1) :
    base.Above (Action.run base.snapshot.1 actions inner) := by
  induction actions generalizing inner with
  | nil => exact above
  | cons action rest ih =>
    have first : base.Above (action.apply base.snapshot.1 inner) := by
      have allowed := nested action mem_cons_self
      cases action with
      | operate op => exact op.apply_above above allowed
      | change depth addr update => exact above.changeHeld depth addr update
    exact ih first fun other listed => nested other (mem_cons_of_mem _ listed)

end Actions

namespace Context

section Reads

variable {ctx : Context Acc Ev}

variable (sound : ctx.Sound)

include sound

variable (addr : Address)

theorem Sound.account_fst :
    (ctx.account addr).1 = ctx.answer (accountSlot addr) (ctx.loader.account addr) := by
  rw [Context.account_fst, (account_spec sound.agrees addr).1]

theorem Sound.addressByName_fst (name : Bytes) :
    (ctx.addressByName name).1 =
      ctx.answer (accountNameSlot name) (ctx.loader.addressByName name) := by
  have base := (addressByName_spec sound.agrees name).1
  rw [← base]
  exact read_fst _ _ ctx

theorem Sound.accountData_fst (pid : UInt8) (name : Bytes) :
    (ctx.accountData addr pid name).1 =
      ctx.answer (accountDataSlot (accountDataKey addr pid name))
        (ctx.loader.accountData addr pid name) := by
  rw [Context.accountData_fst, (accountData_spec sound.agrees addr pid name).1]

theorem Sound.processData_fst (pid : UInt8) (name : Bytes) :
    (ctx.processData pid name).1 =
      ctx.answer (processDataSlot (processDataKey pid name))
        (ctx.loader.processData pid name) := by
  rw [Context.processData_fst, (processData_spec sound.agrees pid name).1]

theorem Sound.utxo_fst (id : UInt64) :
    (ctx.utxo id).1 = ctx.answer (utxoSlot id) (ctx.loader.utxo id) := by
  have base := (utxo_spec sound.agrees id).1
  rw [← base]
  exact read_fst _ _ ctx

theorem Sound.hasAccount_eq
    (existing : ∀ addr acc, ctx.loader.account addr = .ok acc → ctx.loader.hasAccount addr = .ok true)
    (addr : Address) : ctx.hasAccount addr =
      hasKey (·.deletedAccountMap.has addr) (·.accountMap.has addr)
        (ctx.loader.hasAccount addr) (ctx.top :: ctx.parents) := by
  have base : ctx.cache.hasAccount ctx.loader addr = ctx.loader.hasAccount addr := by
    unfold ContextCache.hasAccount
    rw [SortedMap.has_eq]
    cases found : ctx.cache.accountMap.get addr with
    | none => rfl
    | some acc => exact (existing addr acc (sound.agrees.account addr acc found)).symm
  rw [Context.hasAccount, base]

theorem Sound.hasAccountName_eq (names : ctx.loader.NamesCoherent)
    (name : Bytes) : ctx.hasAccountName name =
      hasKey (fun _ => false) (·.accountNameMap.has name)
        (ctx.loader.hasAccountName name) (ctx.top :: ctx.parents) := by
  have base : ctx.cache.hasAccountName ctx.loader name = ctx.loader.hasAccountName name := by
    unfold ContextCache.hasAccountName
    rw [SortedMap.has_eq]
    cases found : ctx.cache.accountNameMap.get name with
    | none => rfl
    | some addr => exact (names name addr (sound.agrees.accountName name addr found)).symm
  rw [Context.hasAccountName, base]

theorem Sound.useTimeSlot_fst (slot : UInt32)
    (key : Bytes) : (ctx.useTimeSlot slot key).1 =
      if ctx.top.timeSlotMap.hasKey slot key || ctx.loader.hasTimeSlot slot key then
        .error .usedTimeSlot
      else .ok () := by
  have base := (hasTimeSlot_spec sound.agrees slot key).1
  unfold Context.useTimeSlot
  cases ctx.top.timeSlotMap.hasKey slot key with
  | true => rfl
  | false =>
    dsimp only
    rw [base]
    rfl

end Reads

variable [HashFunction] [Msgpack] [AccountCodec Acc] [TxOutCodec] [EventCodec Ev]

/-- Everything that can be read of the two contexts is the same, and what is hashed. -/
structure Undone (before after : Context Acc Ev) : Prop where
  stackSize : after.stackSize = before.stackSize
  account : ∀ addr, (after.account addr).1 = (before.account addr).1
  hasAccount : ∀ addr, after.hasAccount addr = before.hasAccount addr
  addressByName : ∀ name, (after.addressByName name).1 = (before.addressByName name).1
  hasAccountName : ∀ name, after.hasAccountName name = before.hasAccountName name
  accountData : ∀ addr pid name,
    (after.accountData addr pid name).1 = (before.accountData addr pid name).1
  processData : ∀ pid name, (after.processData pid name).1 = (before.processData pid name).1
  hasTimeSlot : ∀ slot key, (after.hasTimeSlot slot key).1 = (before.hasTimeSlot slot key).1
  useTimeSlot : ∀ slot key, (after.useTimeSlot slot key).1 = (before.useTimeSlot slot key).1
  events : after.top.events = before.top.events
  eventN : after.top.eventN = before.top.eventN
  hash : after.top.hash after.env = before.top.hash before.env

theorem Undone.refl (ctx : Context Acc Ev) : ctx.Undone ctx where
  stackSize := rfl
  account _ := rfl
  hasAccount _ := rfl
  addressByName _ := rfl
  hasAccountName _ := rfl
  accountData _ _ _ := rfl
  processData _ _ := rfl
  hasTimeSlot _ _ := rfl
  useTimeSlot _ _ := rfl
  events := rfl
  eventN := rfl
  hash := rfl

theorem undone_of_agrees {ctx : Context Acc Ev} (sound : ctx.Sound)
    (existing : ∀ addr acc, ctx.loader.account addr = .ok acc → ctx.loader.hasAccount addr = .ok true)
    (names : ctx.loader.NamesCoherent) {cache : ContextCache Acc} (agrees : cache.Agrees ctx.loader) :
    ctx.Undone { ctx.touch with cache := cache } := by
  have after : ({ ctx.touch with cache := cache } : Context Acc Ev).Sound :=
    { sound with agrees := agrees }
  exact {
    stackSize := rfl
    account := fun addr => (after.account_fst addr).trans (sound.account_fst addr).symm
    hasAccount := fun addr =>
      (after.hasAccount_eq existing addr).trans (sound.hasAccount_eq existing addr).symm
    addressByName := fun name =>
      (after.addressByName_fst name).trans (sound.addressByName_fst name).symm
    hasAccountName := fun name =>
      (after.hasAccountName_eq names name).trans (sound.hasAccountName_eq names name).symm
    accountData := fun addr pid name =>
      (after.accountData_fst addr pid name).trans (sound.accountData_fst addr pid name).symm
    processData := fun pid name =>
      (after.processData_fst pid name).trans (sound.processData_fst pid name).symm
    hasTimeSlot := fun slot key =>
      (after.hasTimeSlot_fst slot key).trans (sound.hasTimeSlot_fst slot key).symm
    useTimeSlot := fun slot key =>
      (after.useTimeSlot_fst slot key).trans (sound.useTimeSlot_fst slot key).symm
    events := rfl
    eventN := rfl
    hash := rfl }

end Context

/-- `Revert` is an exact undo of everything since its snapshot. -/
theorem revert_undoes [Account Acc] [Event Ev] [Base58] [HashFunction] [Msgpack] [AccountCodec Acc]
    [TxOutCodec] [EventCodec Ev] {loader : Loader Acc}
    (existing : ∀ addr acc, loader.account addr = .ok acc → loader.hasAccount addr = .ok true)
    (names : loader.NamesCoherent) (earlier : List (Op Acc Ev)) (later : List (Action Acc Ev)) :
    let ctx := Op.run earlier (Context.new loader)
    let sn := ctx.snapshot.1
    (∀ action ∈ later, action.Within sn) →
      ctx.Undone ((Action.run sn later ctx.snapshot.2).revert sn) := by
  intro ctx sn nested
  have kept := Op.run_keeps (Context.Sound.new loader) earlier
  have above := Action.run_above (Context.Above.snapshot_self kept.sound) nested
  have agrees : (Action.run sn later ctx.snapshot.2).cache.Agrees ctx.loader :=
    above.loader ▸ above.sound.agrees
  rw [above.undone kept.sound.top]
  exact Context.undone_of_agrees kept.sound (kept.loader ▸ existing) (kept.loader ▸ names) agrees

open Instances

theorem emptyLoader_names : emptyLoader.NamesCoherent := by
  intro name addr found
  cases found

/-- An account is created, a nested snapshot is committed and the account is changed through
its pointer. -/
theorem revert_undoes_nested :
    let ctx := Op.run [.setProcessData 1 [0] [7]]
      (Context.new emptyLoader : Context SingleAccount PlainEvent)
    let acc : SingleAccount := ⟨Address.new 1 1 0, [97], []⟩
    let later : List (Action SingleAccount PlainEvent) :=
      [.operate (.createAccount acc), .operate .snapshot, .operate (.setProcessData 1 [0] []),
        .operate (.commit 3), .change 0 (Address.new 1 1 0) fun acc => { acc with keyHash := [1] }]
    ctx.Undone ((Action.run ctx.snapshot.1 later ctx.snapshot.2).revert ctx.snapshot.1) := by
  refine revert_undoes (Database.toLoader_coherent _ _).hasAccount emptyLoader_names _ _ ?_
  simp [Action.Within, Op.Within, Context.snapshot, Context.stackSize, Op.run, Op.apply,
    Context.setProcessData, Context.new]

end Fleta
