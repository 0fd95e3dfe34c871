import Fleta.ContextRun

/-!
# Sequences of context operations

Every operation on a context other than `Snapshot`, `Revert` and `Commit` works in
the top layer. All of them keep a context sound, so every context a sequence of
operations can reach from a fresh one is sound.
-/

namespace Fleta

open Context ContextData ContextCache

variable {Acc Ev : Type}

namespace ContextData

variable (sn : Nat)

theorem drop_layers (parent : ContextData Acc Ev) (rest : List (ContextData Acc Ev)) :
    (parent :: rest).drop ((parent :: rest).length + 2 - sn) =
      if rest.length + 2 ≥ sn then rest.drop (rest.length + 2 - sn) else parent :: rest := by
  rw [List.length_cons]
  split
  · have count : rest.length + 1 + 2 - sn = rest.length + 2 - sn + 1 := by omega
    rw [count, List.drop_succ_cons]
  · have count : rest.length + 1 + 2 - sn = 0 := by omega
    rw [count, List.drop_zero]

variable (ctd : ContextData Acc Ev) (parents : List (ContextData Acc Ev))

theorem commitLoop_parents :
    (commitLoop sn ctd parents).2 = parents.drop (parents.length + 2 - sn) := by
  induction parents generalizing ctd with
  | nil => simp [commitLoop]
  | cons parent rest ih =>
    rw [commitLoop, drop_layers]
    split
    · exact ih _
    · rfl

theorem revertLoop_parents :
    (revertLoop sn ctd parents).2 = parents.drop (parents.length + 2 - sn) := by
  induction parents generalizing ctd with
  | nil => simp [revertLoop]
  | cons parent rest ih =>
    rw [revertLoop, drop_layers]
    split
    · exact ih _
    · rfl

end ContextData

theorem ContextCache.hasTimeSlot_utxoMap (loader : Loader Acc) (slot : UInt32) (key : Bytes)
    (cache : ContextCache Acc) : (cache.hasTimeSlot loader slot key).2.utxoMap = cache.utxoMap := by
  unfold hasTimeSlot
  split
  · rfl
  split <;> rfl

namespace Context

variable {ctx : Context Acc Ev}

/-! ### Outcomes

A compound operation either fails and leaves what its checks and reads did, or goes on to
one change of the top layer. -/

section Outcomes

/-- What `CreateAccount` has checked of an account it inserts. -/
structure Admits [Account Acc] [Base58] (acc : Acc) (ctx : Context Acc Ev) : Prop where
  height : (Account.address acc).height = ctx.genTargetHeight
  plain : (Address.parse (Account.name acc)).isOk = false
  unused : ctx.hasAccount (Account.address acc) ≠ .ok true
  free : ctx.hasAccountName (Account.name acc) ≠ .ok true

theorem refusal_none {tolerated : Err → Bool} {taken : Err} {check : Except Err Bool}
    (passed : refusal tolerated taken check = none) : check ≠ .ok true := by
  intro held
  rw [held] at passed
  cases passed

theorem insertAccount_outcome [Account Acc] [Base58] (tolerated : Err → Bool) (acc : Acc)
    (ctx : Context Acc Ev) :
    (∃ err, ctx.insertAccount tolerated acc = (.error err, ctx.touch)) ∨
      ctx.Admits acc ∧ ctx.insertAccount tolerated acc =
        (.ok (),
          { ctx.touch with
            top := { ctx.top with
                accountMap := ctx.top.accountMap.put (Account.address acc) acc
                accountNameMap :=
                  ctx.top.accountNameMap.put (Account.name acc) (Account.address acc) } }) := by
  unfold insertAccount
  dsimp only
  split
  · exact .inl ⟨_, rfl⟩
  rename_i height
  split
  · exact .inl ⟨_, rfl⟩
  split
  · exact .inl ⟨_, rfl⟩
  rename_i plain
  split
  · exact .inl ⟨_, rfl⟩
  rename_i unused
  split
  · exact .inl ⟨_, rfl⟩
  rename_i free
  exact .inr ⟨⟨Decidable.not_not.mp height, Bool.eq_false_iff.mpr plain, refusal_none unused,
    refusal_none free⟩, rfl⟩

theorem deleteAccount_outcome [Account Acc] (acc : Acc) (ctx : Context Acc Ev) :
    let read := ctx.account (Account.address acc)
    (∃ err, read.1 = .error err ∧ ctx.deleteAccount acc = (.error err, read.2)) ∨
      ∃ found, read.1 = .ok found ∧ ctx.deleteAccount acc = (.ok (), { read.2 with
            top := { read.2.top with
                deletedAccountMap := read.2.top.deletedAccountMap.put (Account.address acc) acc
                accountMap := read.2.top.accountMap.delete (Account.address acc)
                accountNameMap := read.2.top.accountNameMap.delete (Account.name acc) } }) := by
  unfold deleteAccount
  generalize ctx.account (Account.address acc) = read
  obtain ⟨err | found, after⟩ := read
  · exact .inl ⟨err, rfl, rfl⟩
  · exact .inr ⟨found, rfl, rfl⟩

theorem updateAccount_outcome (addr : Address) (change : Acc → Acc) (ctx : Context Acc Ev) :
    let read := ctx.account addr
    (∃ err, read.1 = .error err ∧ ctx.updateAccount addr change = (.error err, read.2)) ∨
      ∃ found, read.1 = .ok found ∧ ctx.updateAccount addr change = (.ok found, { read.2 with
            top :=
              { read.2.top with accountMap := read.2.top.accountMap.put addr (change found) } }) := by
  unfold updateAccount
  generalize ctx.account addr = read
  obtain ⟨err | found, after⟩ := read
  · exact .inl ⟨err, rfl, rfl⟩
  · exact .inr ⟨found, rfl, rfl⟩

theorem createUTXO_outcome (id : UInt64) (vout : TxOut) (ctx : Context Acc Ev) :
    let read := ctx.touch.utxo id
    (∃ err, read.1 ≠ .error .notExistUTXO ∧ ctx.createUTXO id vout = (.error err, read.2)) ∨
      read.1 = .error .notExistUTXO ∧ ctx.createUTXO id vout = (.ok (), { read.2 with
            top :=
              { read.2.top with createdUTXOMap := read.2.top.createdUTXOMap.put id vout } }) := by
  intro read
  unfold createUTXO
  split
  · rename_i found after loaded
    have same : read = (.ok found, after) := loaded
    rw [same]
    refine .inl ⟨.existUTXO, ?_, rfl⟩
    intro equal
    cases equal
  · rename_i err after failed
    have same : read = (.error err, after) := failed
    rw [same]
    split
    · rename_i other
      exact .inl ⟨err, fun equal => other (Except.error.inj equal), rfl⟩
    · rename_i absent
      exact .inr ⟨congrArg Except.error (not_not.mp absent), rfl⟩

theorem deleteUTXO_outcome (spent : UTXO) (ctx : Context Acc Ev) :
    let read := ctx.touch.utxo spent.id
    (∃ err, read.1 = .error err ∧ ctx.deleteUTXO spent = (.error err, read.2)) ∨
      ∃ found, read.1 = .ok found ∧ ctx.deleteUTXO spent = (.ok (), { read.2 with
            top := { read.2.top with
                deletedUTXOMap := read.2.top.deletedUTXOMap.put spent.id spent } }) := by
  unfold deleteUTXO
  generalize ctx.touch.utxo spent.id = read
  obtain ⟨err | found, after⟩ := read
  · exact .inl ⟨err, rfl, rfl⟩
  · exact .inr ⟨found, rfl, rfl⟩

end Outcomes

/-- What a use or a check of a time slot leaves: other slots and another cache. -/
def Reslots (ctx after : Context Acc Ev) : Prop :=
  ∃ cache slots, cache.Agrees ctx.loader ∧ cache.utxoMap = ctx.cache.utxoMap ∧
    after = { ctx with cache := cache, top := { ctx.top with timeSlotMap := slots } }

section

variable (sound : ctx.Sound)

include sound

theorem Steps.retop (top : ContextData Acc Ev) (isTop : top.isTop = ctx.top.isTop)
    (accountData : top.accountDataMap = ctx.top.accountDataMap)
    (processData : top.processDataMap = ctx.top.processDataMap)
    (utxos : top.utxoMap = ctx.top.utxoMap) (timeSlots : top.timeSlotMap = ctx.top.timeSlotMap) :
    ctx.Steps { ctx with top := top } := by
  refine .replace sound top ctx.cache (isTop.trans sound.top) ?_ sound.agrees timeSlots
  have tidy := sound.tidyTop
  exact ⟨accountData ▸ tidy.accountData, processData ▸ tidy.processData, utxos ▸ tidy.utxo⟩

variable (addr : Address)

theorem setAccountData_steps (pid : UInt8)
    (name value : Bytes) : ctx.Steps (ctx.setAccountData addr pid name value) := by
  refine (Steps.touch sound).trans ?_
  refine Steps.replace sound.touch _ ctx.cache ?_ (sound.tidyTop.setAccountData _ value)
    sound.agrees ?_
  · unfold ContextData.setAccountData
    split <;> exact sound.top
  · unfold ContextData.setAccountData
    split <;> rfl

theorem setProcessData_steps (pid : UInt8) (name value : Bytes) :
    ctx.Steps (ctx.setProcessData pid name value) := by
  refine .replace sound _ ctx.cache ?_ (sound.tidyTop.setProcessData _ value) sound.agrees ?_
  · unfold ContextData.setProcessData
    split <;> exact sound.top
  · unfold ContextData.setProcessData
    split <;> rfl

theorem emitEvent_steps [Event Ev] (event : Ev) : ctx.Steps (ctx.emitEvent event) :=
  (Steps.touch sound).trans (Steps.retop sound.touch _ rfl rfl rfl rfl rfl)

theorem insertAccount_steps [Account Acc] [Base58] (tolerated : Err → Bool)
    (acc : Acc) : ctx.Steps (ctx.insertAccount tolerated acc).2 := by
  have touched := Steps.touch sound
  rcases insertAccount_outcome tolerated acc ctx with ⟨err, failed⟩ | ⟨_, inserted⟩
  · rw [failed]
    exact touched
  · rw [inserted]
    exact touched.trans (Steps.retop sound.touch _ rfl rfl rfl rfl rfl)

theorem deleteAccount_steps [Account Acc] (acc : Acc) : ctx.Steps (ctx.deleteAccount acc).2 := by
  have read := account_steps sound (Account.address acc)
  rcases deleteAccount_outcome acc ctx with ⟨err, _, failed⟩ | ⟨found, _, deleted⟩
  · rw [failed]
    exact read
  · rw [deleted]
    exact read.trans (.retop read.sound _ rfl rfl rfl rfl rfl)

theorem updateAccount_steps (change : Acc → Acc) : ctx.Steps (ctx.updateAccount addr change).2 := by
  have read := account_steps sound addr
  rcases updateAccount_outcome addr change ctx with ⟨err, _, failed⟩ | ⟨found, _, updated⟩
  · rw [failed]
    exact read
  · rw [updated]
    exact read.trans (Steps.retop read.sound _ rfl rfl rfl rfl rfl)

theorem createUTXO_steps (id : UInt64) (vout : TxOut) : ctx.Steps (ctx.createUTXO id vout).2 := by
  have read := (Steps.touch sound).trans (utxo_steps sound.touch id)
  rcases createUTXO_outcome id vout ctx with ⟨err, _, failed⟩ | ⟨_, created⟩
  · rw [failed]
    exact read
  · rw [created]
    exact read.trans (Steps.retop read.sound _ rfl rfl rfl rfl rfl)

theorem deleteUTXO_steps (utxo : UTXO) : ctx.Steps (ctx.deleteUTXO utxo).2 := by
  have read := (Steps.touch sound).trans (utxo_steps sound.touch utxo.id)
  rcases deleteUTXO_outcome utxo ctx with ⟨err, _, failed⟩ | ⟨found, _, deleted⟩
  · rw [failed]
    exact read
  · rw [deleted]
    exact read.trans (Steps.retop read.sound _ rfl rfl rfl rfl rfl)

theorem Sound.reslot (cache : ContextCache Acc) (timeSlots : TimeSlotMap)
    (agrees : cache.Agrees ctx.loader) :
    ({ ctx with cache := cache, top := { ctx.top with timeSlotMap := timeSlots } } :
      Context Acc Ev).Sound := by
  have tidy := sound.tidyTop
  exact ⟨sound.top, sound.lower, List.forall_mem_cons.mpr ⟨{ tidy with }, sound.tidyLower⟩, agrees⟩

variable (slot : UInt32)

theorem useTimeSlot_outcome (key : Bytes) : ctx.Reslots (ctx.useTimeSlot slot key).2 := by
  unfold useTimeSlot
  split
  · exact ⟨ctx.cache, ctx.top.timeSlotMap, sound.agrees, rfl, rfl⟩
  · exact ⟨_, _, (hasTimeSlot_spec sound.agrees slot key).2, hasTimeSlot_utxoMap _ _ _ _, rfl⟩

theorem hasTimeSlot_outcome (key : Bytes) : ctx.Reslots (ctx.hasTimeSlot slot key).2 := by
  unfold hasTimeSlot
  split
  · exact ⟨ctx.cache, ctx.top.timeSlotMap, sound.agrees, rfl, rfl⟩
  · have agrees := (hasTimeSlot_spec sound.agrees slot key).2
    have utxos := hasTimeSlot_utxoMap ctx.loader slot key ctx.cache
    dsimp only
    split
    · exact ⟨_, _, agrees, utxos, rfl⟩
    · exact ⟨_, ctx.top.timeSlotMap, agrees, utxos, rfl⟩

end

theorem Sound.new (loader : Loader Acc) : (new loader : Context Acc Ev).Sound where
  top := rfl
  lower := by simp [Context.new]
  tidy := by
    intro layer member
    rw [show layer = .new none by simpa [Context.new] using member]
    exact new_tidy none
  agrees := new_agrees loader

section

variable (sound : ctx.Sound)

include sound

theorem Sound.snapshot : ctx.snapshot.2.Sound where
  top := rfl
  lower := List.forall_mem_cons.mpr ⟨rfl, sound.lower⟩
  tidy := List.forall_mem_cons.mpr ⟨new_tidy (some ctx.top),
    List.forall_mem_cons.mpr ⟨sound.tidyTop.withTop false, sound.tidyLower⟩⟩
  agrees := sound.agrees

theorem Sound.restack (top : ContextData Acc Ev)
    (parents : List (ContextData Acc Ev)) (count : Nat) (kept : parents = ctx.parents.drop count)
    (tidy : ∀ layer ∈ top :: parents, layer.Tidy ctx.loader) :
    ({ ctx.touch with top := { top with isTop := true }, parents := parents } :
      Context Acc Ev).Sound where
  top := rfl
  lower := fun parent member => sound.lower parent (List.mem_of_mem_drop (kept ▸ member))
  tidy := List.forall_mem_cons.mpr
    ⟨(tidy top List.mem_cons_self).withTop true, (List.forall_mem_cons.mp tidy).2⟩
  agrees := sound.agrees

theorem Sound.commit (sn : Nat) : (ctx.commit sn).Sound :=
  sound.restack _ _ _ (commitLoop_parents sn ctx.top ctx.parents)
    (commitLoop_all (fun _ _ => ContextData.Tidy.mergeInto) sn _ _ sound.tidy)

theorem Sound.revert (sn : Nat) : (ctx.revert sn).Sound :=
  sound.restack _ _ _ (revertLoop_parents sn ctx.top ctx.parents) (revertLoop_all sn _ _ sound.tidy)

end

theorem read_top_cases {Value Result : Type} (slot : Slot Acc Ev Value Result)
    (below : ContextCache Acc → Result × ContextCache Acc) (ctx : Context Acc Ev) :
    (ctx.read slot below).2.top = ctx.top ∨
      ∃ value, slot.value ctx.top = none ∧ slot.found (ctx.read slot below).1 = some value ∧
        (ctx.read slot below).2.top = slot.keep value ctx.top := by
  have top : (ctx.read slot below).2.top = kept slot (ctx.read slot below).1 ctx.top :=
    read_top slot below ctx.top ctx.parents ctx.cache
  rw [top]
  exact kept_cases slot _ ctx.top

theorem read_top_frame {Value Result Part : Type} (part : ContextData Acc Ev → Part)
    (slot : Slot Acc Ev Value Result) (below : ContextCache Acc → Result × ContextCache Acc)
    (frame : ∀ value ctd, part (slot.keep value ctd) = part ctd) (ctx : Context Acc Ev) :
    part (ctx.read slot below).2.top = part ctx.top := by
  rcases read_top_cases slot below ctx with same | ⟨copy, _, _, kept⟩
  · rw [same]
  · rw [kept, frame]

section Maps

variable {Key Value Result : Type} [Ord Key] [Std.TransOrd Key] [Std.LawfulEqOrd Key]
  (map : ContextData Acc Ev → SortedMap Key Value) (slot : Slot Acc Ev Value Result) (key : Key)

theorem read_copy (keeps : ∀ value ctd, map (slot.keep value ctd) = (map ctd).put key value)
    (below : ContextCache Acc → Result × ContextCache Acc) (ctx : Context Acc Ev) (other : Key)
    (value : Value) (held : (map (ctx.read slot below).2.top).get other = some value) :
    (map ctx.top).get other = some value ∨
      key = other ∧ slot.found (ctx.read slot below).1 = some value := by
  classical
  rcases read_top_cases slot below ctx with same | ⟨copy, _, found, kept⟩
  · exact .inl (same ▸ held)
  · rw [kept, keeps, SortedMap.get_put] at held
    split at held
    · rename_i same
      exact .inr ⟨same, found.trans held⟩
    · exact .inl held

theorem read_held (reads : ∀ ctd, slot.value ctd = (map ctd).get key)
    (keeps : ∀ value ctd, map (slot.keep value ctd) = (map ctd).put key value)
    (below : ContextCache Acc → Result × ContextCache Acc) (ctx : Context Acc Ev) (other : Key)
    (value : Value) (held : (map ctx.top).get other = some value) :
    (map (ctx.read slot below).2.top).get other = some value := by
  rcases read_top_cases slot below ctx with same | ⟨copy, absent, _, kept⟩
  · rw [same, held]
  · have different : key ≠ other := by
      intro same
      rw [reads, same, held] at absent
      cases absent
    rw [kept, keeps, SortedMap.get_put_of_ne _ _ different, held]

end Maps

theorem toOption_some {Value : Type} {result : Except Err Value} {value : Value}
    (found : result.toOption = some value) : result = .ok value := by
  cases result with
  | error err => cases found
  | ok held => exact congrArg Except.ok (Option.some.inj found)

variable (addr : Address)

theorem account_accountMap (ctx : Context Acc Ev) (other : Address) (acc : Acc)
    (held : (ctx.account addr).2.top.accountMap.get other = some acc) :
    ctx.top.accountMap.get other = some acc ∨ addr = other ∧ (ctx.account addr).1 = .ok acc := by
  rcases read_copy (·.accountMap) (accountSlot addr) addr (fun _ _ => rfl) _ ctx.touch
    other acc held with own | ⟨same, found⟩
  · exact .inl own
  · exact .inr ⟨same, toOption_some found⟩

theorem account_deletedAccountMap (ctx : Context Acc Ev) :
    (ctx.account addr).2.top.deletedAccountMap = ctx.top.deletedAccountMap :=
  read_top_frame _ (accountSlot addr) (ContextCache.account ctx.loader addr)
    (fun _ _ => rfl) ctx.touch

end Context

inductive Op (Acc Ev : Type) where
  | account (addr : Address)
  | updateAccount (addr : Address) (change : Acc → Acc)
  | createAccount (acc : Acc)
  | createAccountIgnoreDelete (acc : Acc)
  | deleteAccount (acc : Acc)
  | addressByName (name : Bytes)
  | accountData (addr : Address) (pid : UInt8) (name : Bytes)
  | setAccountData (addr : Address) (pid : UInt8) (name value : Bytes)
  | processData (pid : UInt8) (name : Bytes)
  | setProcessData (pid : UInt8) (name value : Bytes)
  | utxo (id : UInt64)
  | createUTXO (id : UInt64) (vout : TxOut)
  | deleteUTXO (spent : UTXO)
  | emitEvent (event : Ev)
  | useTimeSlot (slot : UInt32) (key : Bytes)
  | hasTimeSlot (slot : UInt32) (key : Bytes)
  | snapshot
  | revert (sn : Nat)
  | commit (sn : Nat)

variable [Account Acc] [Event Ev] [Base58]

def Op.apply (ctx : Context Acc Ev) : Op Acc Ev → Context Acc Ev
  | account addr => (ctx.account addr).2
  | updateAccount addr change => (ctx.updateAccount addr change).2
  | createAccount acc => (ctx.createAccount acc).2
  | createAccountIgnoreDelete acc => (ctx.createAccountIgnoreDelete acc).2
  | deleteAccount acc => (ctx.deleteAccount acc).2
  | addressByName name => (ctx.addressByName name).2
  | accountData addr pid name => (ctx.accountData addr pid name).2
  | setAccountData addr pid name value => ctx.setAccountData addr pid name value
  | processData pid name => (ctx.processData pid name).2
  | setProcessData pid name value => ctx.setProcessData pid name value
  | utxo id => (ctx.utxo id).2
  | createUTXO id vout => (ctx.createUTXO id vout).2
  | deleteUTXO spent => (ctx.deleteUTXO spent).2
  | emitEvent event => ctx.emitEvent event
  | useTimeSlot slot key => (ctx.useTimeSlot slot key).2
  | hasTimeSlot slot key => (ctx.hasTimeSlot slot key).2
  | snapshot => ctx.snapshot.2
  | revert sn => ctx.revert sn
  | commit sn => ctx.commit sn

def Op.run (ops : List (Op Acc Ev)) (ctx : Context Acc Ev) : Context Acc Ev := ops.foldl Op.apply ctx

structure Context.Keeps (before after : Context Acc Ev) : Prop where
  sound : after.Sound
  loader : after.loader = before.loader
  genTargetHeight : after.genTargetHeight = before.genTargetHeight

variable {ctx : Context Acc Ev}

/-- An operation works in the top layer, on the time slots, or on the stack of layers. -/
theorem Op.apply_cases (sound : ctx.Sound) (op : Op Acc Ev) :
    ctx.Steps (op.apply ctx) ∨ ctx.Reslots (op.apply ctx) ∨ op = .snapshot ∨
      (∃ sn, op = .revert sn) ∨ ∃ sn, op = .commit sn := by
  cases op with
  | account addr => exact .inl (account_steps sound addr)
  | updateAccount addr change => exact .inl (updateAccount_steps sound addr change)
  | createAccount acc => exact .inl (insertAccount_steps sound _ acc)
  | createAccountIgnoreDelete acc => exact .inl (insertAccount_steps sound _ acc)
  | deleteAccount acc => exact .inl (deleteAccount_steps sound acc)
  | addressByName name => exact .inl (addressByName_steps sound name)
  | accountData addr pid name => exact .inl (accountData_steps sound addr pid name)
  | setAccountData addr pid name value =>
    exact .inl (setAccountData_steps sound addr pid name value)
  | processData pid name => exact .inl (processData_steps sound pid name)
  | setProcessData pid name value => exact .inl (setProcessData_steps sound pid name value)
  | utxo id => exact .inl (utxo_steps sound id)
  | createUTXO id vout => exact .inl (createUTXO_steps sound id vout)
  | deleteUTXO spent => exact .inl (deleteUTXO_steps sound spent)
  | emitEvent event => exact .inl (emitEvent_steps sound event)
  | useTimeSlot slot key => exact .inr (.inl (useTimeSlot_outcome sound slot key))
  | hasTimeSlot slot key => exact .inr (.inl (hasTimeSlot_outcome sound slot key))
  | snapshot => exact .inr (.inr (.inl rfl))
  | revert sn => exact .inr (.inr (.inr (.inl ⟨sn, rfl⟩)))
  | commit sn => exact .inr (.inr (.inr (.inr ⟨sn, rfl⟩)))

theorem Op.apply_keeps (sound : ctx.Sound) (op : Op Acc Ev) : ctx.Keeps (op.apply ctx) := by
  rcases op.apply_cases sound with steps | ⟨cache, slots, agrees, _, same⟩ | rfl | ⟨sn, rfl⟩ | ⟨sn, rfl⟩
  · exact { steps with }
  · rw [same]
    exact ⟨sound.reslot _ _ agrees, rfl, rfl⟩
  · exact ⟨sound.snapshot, rfl, rfl⟩
  · exact ⟨sound.revert sn, rfl, rfl⟩
  · exact ⟨sound.commit sn, rfl, rfl⟩

theorem Op.run_keeps (sound : ctx.Sound) (ops : List (Op Acc Ev)) : ctx.Keeps (Op.run ops ctx) := by
  induction ops generalizing ctx with
  | nil => exact ⟨sound, rfl, rfl⟩
  | cons op ops ih =>
    have step := op.apply_keeps sound
    have rest := ih step.sound
    exact ⟨rest.sound, rest.loader.trans step.loader,
      rest.genTargetHeight.trans step.genTargetHeight⟩

end Fleta
