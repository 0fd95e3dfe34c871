import Fleta.ContextRead

/-!
# Runs of context operations

A context stays sound along every sequence of operations: only its top layer keeps
copies, a value it holds is never empty, and its cache never disagrees with the
loader. The cache is then invisible: every operation gives the same result and the
same layers whatever the cache remembers.
-/

namespace Fleta

open Overlay ContextData SortedMap

variable {Acc Ev Value Result : Type}

/-- The loader's own answers fit together. -/
structure Loader.Coherent (loader : Loader Acc) : Prop where
  hasAccount : ∀ addr acc, loader.account addr = .ok acc → loader.hasAccount addr = .ok true
  utxoID : ∀ id utxo, loader.utxo id = .ok utxo → utxo.id = id

namespace TimeSlotMap

theorem hasKey_putKey (map : TimeSlotMap) (slot other : UInt32) (key otherKey : Bytes) :
    (map.putKey slot key).hasKey other otherKey =
      (decide (slot = other ∧ key = otherKey) || map.hasKey other otherKey) := by
  unfold hasKey putKey
  by_cases sameSlot : slot = other
  · subst sameSlot
    rw [get_put_self]
    by_cases sameKey : key = otherKey
    · subst sameKey
      simp
    · simp only [has_eq, get_put_of_ne _ _ sameKey]
      cases map.get slot <;> simp [sameKey]
  · rw [get_put_of_ne _ _ sameSlot]
    simp [sameSlot]

end TimeSlotMap

namespace ContextCache

/-- Everything remembered is what the loader answers. -/
structure Agrees (cache : ContextCache Acc) (loader : Loader Acc) : Prop where
  account : ∀ addr acc, cache.accountMap.get addr = some acc → loader.account addr = .ok acc
  accountName : ∀ name addr, cache.accountNameMap.get name = some addr →
    loader.addressByName name = .ok addr
  accountData : ∀ addr pid name value,
    cache.accountDataMap.get (accountDataKey addr pid name) = some value →
      loader.accountData addr pid name = value
  processData : ∀ pid name value,
    cache.processDataMap.get (processDataKey pid name) = some value →
      loader.processData pid name = value
  utxo : ∀ id utxo, cache.utxoMap.get id = some utxo → loader.utxo id = .ok utxo
  timeSlot : ∀ slot key, cache.timeSlotMap.hasKey slot key = true →
    loader.hasTimeSlot slot key = true

theorem new_agrees (loader : Loader Acc) : (new : ContextCache Acc).Agrees loader := by
  constructor <;> simp [new, TimeSlotMap.hasKey]

variable {loader : Loader Acc} {cache : ContextCache Acc}

section Recall

variable {Key Value : Type} [Ord Key] [Std.TransOrd Key] [Std.LawfulEqOrd Key]

theorem recall_spec (map : SortedMap Key Value) (load : Key → Except Err Value)
    (agrees : ∀ key value, map.get key = some value → load key = .ok value) (key : Key) :
    (recalled map key (load key)).1 = load key ∧
      ∀ other value, (recalled map key (load key)).2.get other = some value →
        load other = .ok value := by
  classical
  unfold recalled
  cases found : map.get key with
  | some value => exact ⟨(agrees key value found).symm, agrees⟩
  | none =>
    cases loaded : load key with
    | error err => exact ⟨rfl, agrees⟩
    | ok value =>
      refine ⟨rfl, fun other held => ?_⟩
      rw [get_put]
      split
      · rename_i same
        rintro ⟨rfl⟩
        rw [← same, loaded]
      · exact agrees other held

theorem recall_data_spec (map : SortedMap Bytes Bytes) (Loads : Bytes → Bytes → Prop)
    (agrees : ∀ key value, map.get key = some value → Loads key value) (key loaded : Bytes)
    (loads : Loads key loaded) :
    Loads key (recallData map key loaded).1 ∧
      ∀ other value, (recallData map key loaded).2.get other = some value → Loads other value := by
  unfold recallData
  cases found : map.get key with
  | some value => exact ⟨agrees key value found, agrees⟩
  | none =>
    refine ⟨loads, fun other held => ?_⟩
    rw [get_put]
    split
    · rename_i same
      rintro ⟨rfl⟩
      rw [← same]
      exact loads
    · exact agrees other held

end Recall

variable (agrees : cache.Agrees loader)

include agrees

variable (addr : Address)

theorem account_spec :
    (cache.account loader addr).1 = loader.account addr ∧
      (cache.account loader addr).2.Agrees loader := by
  obtain ⟨result, kept⟩ := recall_spec cache.accountMap loader.account agrees.account addr
  exact ⟨result, { agrees with account := kept }⟩

theorem addressByName_spec (name : Bytes) :
    (cache.addressByName loader name).1 = loader.addressByName name ∧
      (cache.addressByName loader name).2.Agrees loader := by
  obtain ⟨result, kept⟩ :=
    recall_spec cache.accountNameMap loader.addressByName agrees.accountName name
  exact ⟨result, { agrees with accountName := kept }⟩

theorem utxo_spec (id : UInt64) :
    (cache.utxo loader id).1 = loader.utxo id ∧ (cache.utxo loader id).2.Agrees loader := by
  obtain ⟨result, kept⟩ := recall_spec cache.utxoMap loader.utxo agrees.utxo id
  exact ⟨result, { agrees with utxo := kept }⟩

theorem accountData_spec (pid : UInt8) (name : Bytes) :
    (cache.accountData loader addr pid name).1 = loader.accountData addr pid name ∧
      (cache.accountData loader addr pid name).2.Agrees loader := by
  obtain ⟨result, kept⟩ := recall_data_spec cache.accountDataMap
    (fun key value => ∀ addr pid name, key = accountDataKey addr pid name →
      loader.accountData addr pid name = value)
    (by rintro _ value found addr pid name rfl; exact agrees.accountData addr pid name value found)
    (accountDataKey addr pid name) (loader.accountData addr pid name)
    (by
      intro otherAddr otherPid otherName same
      obtain ⟨rfl, rfl, rfl⟩ := account_data_key_injective same
      rfl)
  refine ⟨(result addr pid name rfl).symm, { agrees with accountData := ?_ }⟩
  exact fun addr pid name value found => kept _ value found addr pid name rfl

theorem processData_spec (pid : UInt8) (name : Bytes) :
    (cache.processData loader pid name).1 = loader.processData pid name ∧
      (cache.processData loader pid name).2.Agrees loader := by
  obtain ⟨result, kept⟩ := recall_data_spec cache.processDataMap
    (fun key value => ∀ pid name, key = processDataKey pid name →
      loader.processData pid name = value)
    (by rintro _ value found pid name rfl; exact agrees.processData pid name value found)
    (processDataKey pid name) (loader.processData pid name)
    (by
      intro otherPid otherName same
      obtain ⟨rfl, rfl⟩ := process_data_key_injective same
      rfl)
  refine ⟨(result pid name rfl).symm, { agrees with processData := ?_ }⟩
  exact fun pid name value found => kept _ value found pid name rfl

theorem hasTimeSlot_spec (slot : UInt32) (key : Bytes) :
    (cache.hasTimeSlot loader slot key).1 = loader.hasTimeSlot slot key ∧
      (cache.hasTimeSlot loader slot key).2.Agrees loader := by
  unfold hasTimeSlot
  by_cases known : cache.timeSlotMap.hasKey slot key = true
  · simp only [known, if_true]
    exact ⟨(agrees.timeSlot slot key known).symm, agrees⟩
  · by_cases used : loader.hasTimeSlot slot key = true
    · simp only [known, used, if_true, if_false, Bool.false_eq_true]
      refine ⟨trivial, { agrees with timeSlot := fun otherSlot otherKey => ?_ }⟩
      rw [TimeSlotMap.hasKey_putKey]
      simp only [Bool.or_eq_true, decide_eq_true_eq]
      rintro (⟨rfl, rfl⟩ | earlier)
      · exact used
      · exact agrees.timeSlot otherSlot otherKey earlier
    · simp [known, used, agrees]

theorem hasAccount_eq (coherent : loader.Coherent)
    (addr : Address) : cache.hasAccount loader addr = loader.hasAccount addr := by
  unfold hasAccount
  rw [has_eq]
  cases found : cache.accountMap.get addr with
  | none => simp
  | some acc => simp [coherent.hasAccount addr acc (agrees.account addr acc found)]

end ContextCache

/-- A layer holds no empty data value, and over a coherent loader every UTXO lies
under its own id. -/
structure ContextData.Tidy (ctd : ContextData Acc Ev) (loader : Loader Acc) : Prop where
  accountData : ∀ key value, ctd.accountDataMap.get key = some value → value ≠ []
  processData : ∀ key value, ctd.processDataMap.get key = some value → value ≠ []
  utxo : loader.Coherent → ∀ id utxo, ctd.utxoMap.get id = some utxo → utxo.id = id

structure Context.Sound (ctx : Context Acc Ev) : Prop where
  top : ctx.top.isTop = true
  lower : ∀ parent ∈ ctx.parents, parent.isTop = false
  tidy : ∀ layer ∈ ctx.top :: ctx.parents, layer.Tidy ctx.loader
  agrees : ctx.cache.Agrees ctx.loader

namespace ContextData

variable {loader : Loader Acc}

theorem new_tidy (parent : Option (ContextData Acc Ev)) : (new parent).Tidy loader := by
  constructor <;> simp [new]

private theorem put_nonempty {map : SortedMap Bytes Bytes} {value : Bytes}
    (full : ∀ key held, map.get key = some held → held ≠ []) (nonempty : ¬value.length = 0)
    (key : Bytes) : ∀ other held, (map.put key value).get other = some held → held ≠ [] :=
  forall_get_put full fun empty => nonempty (by simp [empty])

variable {ctd : ContextData Acc Ev}

theorem Tidy.setAccountData (tidy : ctd.Tidy loader)
    (key value : Bytes) : (ctd.setAccountData key value).Tidy loader := by
  unfold ContextData.setAccountData
  split
  · exact { tidy with accountData := fun _ _ found => tidy.accountData _ _ (get_of_get_delete found) }
  · rename_i nonempty
    exact { tidy with accountData := put_nonempty tidy.accountData nonempty key }

theorem Tidy.setProcessData (tidy : ctd.Tidy loader)
    (key value : Bytes) : (ctd.setProcessData key value).Tidy loader := by
  unfold ContextData.setProcessData
  split
  · exact { tidy with processData := fun _ _ found => tidy.processData _ _ (get_of_get_delete found) }
  · rename_i nonempty
    exact { tidy with processData := put_nonempty tidy.processData nonempty key }

theorem merged_value {Key Held Mark : Type} [Ord Key] [Std.TransOrd Key]
    [Std.LawfulEqOrd Key] {marks : SortedMap Key Mark} {child parent : SortedMap Key Held}
    {key : Key} {value : Held}
    (found : (deleteAll marks (putAll child parent)).get key = some value) :
    child.get key = some value ∨ parent.get key = some value := by
  rw [get_deleteAll, get_putAll] at found
  cases marks.get key <;> cases childHeld : child.get key <;> simp_all

theorem Tidy.mergeInto {child parent : ContextData Acc Ev} (childTidy : child.Tidy loader)
    (parentTidy : parent.Tidy loader) : (mergeInto child parent).Tidy loader where
  accountData key value found :=
    (merged_value found).elim (childTidy.accountData key value) (parentTidy.accountData key value)
  processData key value found :=
    (merged_value found).elim (childTidy.processData key value) (parentTidy.processData key value)
  utxo coherent id utxo found :=
    (merged_value found).elim (childTidy.utxo coherent id utxo) (parentTidy.utxo coherent id utxo)

theorem Tidy.withTop (tidy : ctd.Tidy loader) (isTop : Bool) :
    ({ ctd with isTop := isTop } : ContextData Acc Ev).Tidy loader :=
  { tidy with }

variable {parents : List (ContextData Acc Ev)}

theorem commitLoop_keeps (Holds : List (ContextData Acc Ev) → Prop)
    (merges : ∀ child parent rest,
      Holds (child :: parent :: rest) → Holds (mergeInto child parent :: rest))
    (sn : Nat) (holds : Holds (ctd :: parents)) :
    Holds ((commitLoop sn ctd parents).1 :: (commitLoop sn ctd parents).2) := by
  induction parents generalizing ctd with
  | nil => exact holds
  | cons parent rest ih =>
    rw [commitLoop]
    split
    · exact ih (merges ctd parent rest holds)
    · exact holds

theorem revertLoop_keeps (Holds : List (ContextData Acc Ev) → Prop)
    (drops : ∀ child rest, Holds (child :: rest) → Holds rest) (sn : Nat)
    (holds : Holds (ctd :: parents)) :
    Holds ((revertLoop sn ctd parents).1 :: (revertLoop sn ctd parents).2) := by
  induction parents generalizing ctd with
  | nil => exact holds
  | cons parent rest ih =>
    rw [revertLoop]
    split
    · exact ih (drops ctd (parent :: rest) holds)
    · exact holds

variable {Holds : ContextData Acc Ev → Prop}

theorem commitLoop_all
    (merges : ∀ child parent, Holds child → Holds parent → Holds (mergeInto child parent))
    (sn : Nat) (ctd : ContextData Acc Ev) (parents : List (ContextData Acc Ev))
    (all : ∀ layer ∈ ctd :: parents, Holds layer) :
    ∀ layer ∈ (commitLoop sn ctd parents).1 :: (commitLoop sn ctd parents).2, Holds layer := by
  refine commitLoop_keeps (∀ layer ∈ ·, Holds layer) (fun child parent rest all => ?_) sn all
  simp only [List.forall_mem_cons] at all ⊢
  exact ⟨merges child parent all.1 all.2.1, all.2.2⟩

theorem revertLoop_all (sn : Nat) (ctd : ContextData Acc Ev)
    (parents : List (ContextData Acc Ev)) (all : ∀ layer ∈ ctd :: parents, Holds layer) :
    ∀ layer ∈ (revertLoop sn ctd parents).1 :: (revertLoop sn ctd parents).2, Holds layer :=
  revertLoop_keeps (∀ layer ∈ ·, Holds layer) (fun _ _ => List.forall_mem_of_forall_mem_cons) sn all

variable {slot : Slot Acc Ev Value Result}

@[simp] theorem kept_isTop
    (keeps : ∀ value ctd, (slot.keep value ctd).isTop = ctd.isTop) (result : Result)
    (ctd : ContextData Acc Ev) : (kept slot result ctd).isTop = ctd.isTop := by
  rcases kept_cases slot result ctd with same | ⟨copy, _, _, copied⟩
  · rw [same]
  · rw [copied, keeps]

theorem Tidy.kept {result : Result} (tidy : ctd.Tidy loader)
    (keeps : ∀ value, slot.found result = some value → (slot.keep value ctd).Tidy loader) :
    (kept slot result ctd).Tidy loader := by
  rcases kept_cases slot result ctd with same | ⟨copy, _, found, copied⟩
  · rwa [same]
  · rw [copied]
    exact keeps copy found

theorem nonEmpty_some {value held : Bytes} (found : nonEmpty value = some held) :
    ¬held.length = 0 := by
  unfold nonEmpty at found
  split at found
  · cases found
    omega
  · cases found

theorem Tidy.keepAccountData (tidy : ctd.Tidy loader)
    (key result : Bytes) : (ContextData.kept (accountDataSlot key) result ctd).Tidy loader :=
  tidy.kept fun _ found =>
    { tidy with accountData := put_nonempty tidy.accountData (nonEmpty_some found) key }

theorem Tidy.keepProcessData (tidy : ctd.Tidy loader)
    (key result : Bytes) : (ContextData.kept (processDataSlot key) result ctd).Tidy loader :=
  tidy.kept fun _ found =>
    { tidy with processData := put_nonempty tidy.processData (nonEmpty_some found) key }

theorem Tidy.keepUTXO (tidy : ctd.Tidy loader) (id : UInt64) (result : Except Err UTXO)
    (own : loader.Coherent → ∀ utxo, result = .ok utxo → utxo.id = id) :
    (ContextData.kept (utxoSlot id) result ctd).Tidy loader := by
  refine tidy.kept fun utxo found => { tidy with utxo := fun coherent other held => ?_ }
  have result_eq : result = .ok utxo := by
    cases result with
    | error err => cases found
    | ok value =>
      cases found
      rfl
  simp only [utxoSlot, get_put]
  split
  · rename_i same
    rintro ⟨rfl⟩
    rw [← same]
    exact own coherent utxo result_eq
  · exact tidy.utxo coherent other held

end ContextData

namespace Context

variable {ctx : Context Acc Ev}

def answer (slot : Slot Acc Ev Value Result) (base : Result) (ctx : Context Acc Ev) : Result :=
  slot.result base (lookup ((ctx.top :: ctx.parents).map slot.layer))

theorem read_fst (slot : Slot Acc Ev Value Result)
    (below : ContextCache Acc → Result × ContextCache Acc) (ctx : Context Acc Ev) :
    (ctx.read slot below).1 = ctx.answer slot (below ctx.cache).1 :=
  (read_spec slot below ctx.top ctx.parents ctx.cache).1

section

variable (sound : ctx.Sound)

include sound

/-- In a sound context a read returns the answer of the layers over the loader,
keeps it in the top layer and otherwise touches only the cache. -/
theorem Sound.read (slot : Slot Acc Ev Value Result)
    (below : ContextCache Acc → Result × ContextCache Acc) (base : Result)
    (loads : (below ctx.cache).1 = base ∧ (below ctx.cache).2.Agrees ctx.loader) :
    ∃ cache, cache.Agrees ctx.loader ∧
      ctx.read slot below =
        (ctx.answer slot base,
          { ctx with
            top := ContextData.kept slot (ctx.answer slot base) ctx.top
            cache := cache }) := by
  refine ⟨(ContextData.read slot below ctx.top ctx.parents ctx.cache).2.2.2, ?_, ?_⟩
  · rw [(ContextData.read_spec ..).2]
    unfold ContextData.cacheAfter
    split
    · exact loads.2
    · exact sound.agrees
  · have result := read_fst slot below ctx
    rw [loads.1] at result
    have top := ContextData.read_top slot below ctx.top ctx.parents ctx.cache
    have parents := ContextData.read_parents slot below ctx.top ctx.parents ctx.cache sound.lower
    unfold Context.read at result ⊢
    dsimp only at result ⊢
    rw [top, parents, result]

theorem Sound.touch : ctx.touch.Sound :=
  { sound with }

theorem Sound.tidyTop : ctx.top.Tidy ctx.loader :=
  sound.tidy ctx.top List.mem_cons_self

theorem Sound.tidyLower : ∀ layer ∈ ctx.parents, layer.Tidy ctx.loader :=
  (List.forall_mem_cons.mp sound.tidy).2

end

/-- An operation that works in the top layer only, and leaves the used time slots. -/
structure Steps (before after : Context Acc Ev) : Prop where
  sound : after.Sound
  parents : after.parents = before.parents
  loader : after.loader = before.loader
  genTargetHeight : after.genTargetHeight = before.genTargetHeight
  genLastHash : after.genLastHash = before.genLastHash
  genTimestamp : after.genTimestamp = before.genTimestamp
  timeSlotMap : after.top.timeSlotMap = before.top.timeSlotMap
  unhashed : before.isLatestHash = false → after.isLatestHash = false
  dataHash : after.dataHash = before.dataHash

namespace Steps

theorem refl (sound : ctx.Sound) : ctx.Steps ctx :=
  ⟨sound, rfl, rfl, rfl, rfl, rfl, rfl, id, rfl⟩

theorem trans {first second third : Context Acc Ev} (left : first.Steps second)
    (right : second.Steps third) : first.Steps third where
  sound := right.sound
  parents := right.parents.trans left.parents
  loader := right.loader.trans left.loader
  genTargetHeight := right.genTargetHeight.trans left.genTargetHeight
  genLastHash := right.genLastHash.trans left.genLastHash
  genTimestamp := right.genTimestamp.trans left.genTimestamp
  timeSlotMap := right.timeSlotMap.trans left.timeSlotMap
  unhashed := fun fresh => right.unhashed (left.unhashed fresh)
  dataHash := right.dataHash.trans left.dataHash

theorem touch (sound : ctx.Sound) : ctx.Steps ctx.touch :=
  ⟨sound.touch, rfl, rfl, rfl, rfl, rfl, rfl, fun _ => rfl, rfl⟩

theorem replace (sound : ctx.Sound) (top : ContextData Acc Ev) (cache : ContextCache Acc)
    (isTop : top.isTop = true) (tidy : top.Tidy ctx.loader) (agrees : cache.Agrees ctx.loader)
    (timeSlots : top.timeSlotMap = ctx.top.timeSlotMap) :
    ctx.Steps { ctx with top := top, cache := cache } where
  sound := ⟨isTop, sound.lower, List.forall_mem_cons.mpr ⟨tidy, sound.tidyLower⟩, agrees⟩
  parents := rfl
  loader := rfl
  genTargetHeight := rfl
  genLastHash := rfl
  genTimestamp := rfl
  timeSlotMap := timeSlots
  unhashed := id
  dataHash := rfl

end Steps

variable (sound : ctx.Sound)

include sound

theorem Sound.readSteps (slot : Slot Acc Ev Value Result)
    (below : ContextCache Acc → Result × ContextCache Acc) (base : Result)
    (loads : (below ctx.cache).1 = base ∧ (below ctx.cache).2.Agrees ctx.loader)
    (isTop : ∀ value ctd, (slot.keep value ctd).isTop = ctd.isTop)
    (timeSlots : ∀ value ctd, (slot.keep value ctd).timeSlotMap = ctd.timeSlotMap)
    (tidy : (kept slot (ctx.answer slot base) ctx.top).Tidy ctx.loader) :
    ctx.Steps (ctx.read slot below).2 := by
  obtain ⟨cache, agrees, same⟩ := sound.read slot below base loads
  rw [same]
  refine Steps.replace sound _ cache ?_ tidy agrees ?_
  · rw [kept_isTop isTop, sound.top]
  · rcases kept_cases slot (ctx.answer slot base) ctx.top with same | ⟨_, _, _, copied⟩
    · rw [same]
    · rw [copied, timeSlots]

variable (addr : Address)

theorem account_steps : ctx.Steps (ctx.account addr).2 := by
  refine (Steps.touch sound).trans ?_
  refine sound.touch.readSteps _ _ _ (ContextCache.account_spec sound.agrees addr)
    (fun _ _ => rfl) (fun _ _ => rfl) ?_
  exact sound.tidyTop.kept fun _ _ =>
    ⟨sound.tidyTop.accountData, sound.tidyTop.processData, sound.tidyTop.utxo⟩

theorem addressByName_steps (name : Bytes) : ctx.Steps (ctx.addressByName name).2 := by
  refine sound.readSteps _ _ _ (ContextCache.addressByName_spec sound.agrees name)
    (fun _ _ => rfl) (fun _ _ => rfl) ?_
  exact sound.tidyTop.kept fun _ _ =>
    ⟨sound.tidyTop.accountData, sound.tidyTop.processData, sound.tidyTop.utxo⟩

theorem accountData_steps (pid : UInt8) (name : Bytes) :
    ctx.Steps (ctx.accountData addr pid name).2 :=
  sound.readSteps _ _ _ (ContextCache.accountData_spec sound.agrees addr pid name)
    (fun _ _ => rfl) (fun _ _ => rfl) (sound.tidyTop.keepAccountData _ _)

theorem processData_steps (pid : UInt8) (name : Bytes) : ctx.Steps (ctx.processData pid name).2 :=
  sound.readSteps _ _ _ (ContextCache.processData_spec sound.agrees pid name)
    (fun _ _ => rfl) (fun _ _ => rfl) (sound.tidyTop.keepProcessData _ _)

theorem answer_utxo_id (coherent : ctx.loader.Coherent) (id : UInt64) (utxo : UTXO)
    (found : ctx.answer (utxoSlot id) (ctx.loader.utxo id) = .ok utxo) :
    utxo.id = id := by
  unfold answer at found
  cases answered : lookup ((ctx.top :: ctx.parents).map (utxoSlot id).layer) with
  | silent =>
    rw [answered] at found
    exact coherent.utxoID id utxo found
  | deleted =>
    rw [answered] at found
    cases found
  | value held =>
    rw [answered] at found
    cases found
    obtain ⟨_, member, stored⟩ := lookup_value_held answered
    obtain ⟨layer, layered, rfl⟩ := List.mem_map.mp member
    exact (sound.tidy layer layered).utxo coherent id utxo stored

theorem utxo_steps (id : UInt64) : ctx.Steps (ctx.utxo id).2 :=
  sound.readSteps _ _ _ (ContextCache.utxo_spec sound.agrees id) (fun _ _ => rfl) (fun _ _ => rfl)
    (sound.tidyTop.keepUTXO id _ fun coherent => answer_utxo_id sound coherent id)

end Context

end Fleta
