import Fleta.BlockCreator

/-!
# What one transaction does to a context

A transaction either fails and is reverted, which leaves nothing but cached answers,
or succeeds and adds its time slot to the layer it was started from. The exception is a
time slot already used in the loader: the snapshot then stays open.
-/

namespace Fleta

open Transaction TimeSlotMap

variable {Acc Ev Tx : Type}

namespace Context

variable {ctx : Context Acc Ev}

def opened (slot : UInt32) (key : Bytes) (cache : ContextCache Acc) (ctx : Context Acc Ev) :
    Context Acc Ev :=
  { ctx.snapshot.2 with
    top := { ctx.snapshot.2.top with timeSlotMap := putKey .empty slot key }
    cache := cache }

/-- In a fresh snapshot `UseTimeSlot` depends on the loader alone: the new layer is
empty and the layers below it are not asked. -/
theorem useTimeSlot_snapshot (sound : ctx.Sound) (slot : UInt32) (key : Bytes) :
    ∃ cache, cache.Agrees ctx.loader ∧
      ctx.snapshot.2.useTimeSlot slot key =
        (if ctx.loader.hasTimeSlot slot key then .error .usedTimeSlot else .ok (),
          ctx.opened slot key cache) := by
  obtain ⟨known, agrees⟩ := ContextCache.hasTimeSlot_spec sound.agrees slot key
  refine ⟨(ctx.cache.hasTimeSlot ctx.loader slot key).2, agrees, ?_⟩
  have unused : hasKey ctx.snapshot.2.top.timeSlotMap slot key = false := rfl
  unfold useTimeSlot
  rw [unused, ← known]
  rfl

theorem Sound.opened (sound : ctx.Sound) (slot : UInt32) (key : Bytes)
    {cache : ContextCache Acc} (agrees : cache.Agrees ctx.loader) :
    (ctx.opened slot key cache).Sound := by
  have tidy := sound.snapshot.tidyTop
  exact ⟨rfl, sound.snapshot.lower,
    List.forall_mem_cons.mpr ⟨{ tidy with }, sound.snapshot.tidyLower⟩, agrees⟩

theorem Twin.opened {left right : Context Acc Ev} (twin : left.Twin right) (slot : UInt32)
    (key : Bytes) {leftCache rightCache : ContextCache Acc}
    (leftAgrees : leftCache.Agrees left.loader) (rightAgrees : rightCache.Agrees right.loader) :
    (left.opened slot key leftCache).Twin (right.opened slot key rightCache) := by
  refine ⟨twin.leftSound.opened slot key leftAgrees, twin.rightSound.opened slot key rightAgrees,
    twin.coherent, twin.names, ?_⟩
  rw [twin.same]
  rfl

theorem hasKey_mergeTimeSlots (child parent : TimeSlotMap) (slot : UInt32) (key : Bytes) :
    hasKey (ContextData.mergeTimeSlots child parent) slot key =
      (child.hasKey slot key || parent.hasKey slot key) := by
  unfold hasKey ContextData.mergeTimeSlots
  rw [SortedMap.get_foldl_eachAll _ slot slot
    (fun mp held => some (ContextData.mergeSlot mp held)) fun map entry => by
      rw [SortedMap.get_put]
      split <;> simp_all]
  cases child.get slot with
  | none => simp
  | some mp =>
    cases parent.get slot with
    | none => simp [ContextData.mergeSlot]
    | some tp =>
      simp only [ContextData.mergeSlot, SortedMap.has_eq, SortedMap.get_putAll]
      cases mp.get key <;> simp

end Context

/-- The contexts after a committed transaction: the same stack, and the slot used. -/
structure Context.Committed (slot : UInt32) (key : Bytes) (before after : Context Acc Ev) :
    Prop where
  sound : after.Sound
  parents : after.parents = before.parents
  loader : after.loader = before.loader
  genTargetHeight : after.genTargetHeight = before.genTargetHeight
  genLastHash : after.genLastHash = before.genLastHash
  genTimestamp : after.genTimestamp = before.genTimestamp
  unhashed : after.isLatestHash = false
  timeSlots : ∀ other otherKey, after.top.timeSlotMap.hasKey other otherKey =
    (decide (slot = other ∧ key = otherKey) || before.top.timeSlotMap.hasKey other otherKey)

namespace Chain

variable [Account Acc] [Event Ev] [Base58] [Transaction Acc Ev Tx] {ctx : Context Acc Ev}

theorem runTransaction_steps (sound : ctx.Sound) (generator : Address) (pid : UInt8) (tx : Tx)
    (signers : List PublicHash) (index : UInt16) :
    ctx.Steps (runTransaction generator pid tx signers index ctx).2 := by
  have validated := (validate tx pid signers).run_steps sound
  unfold runTransaction
  split
  · rename_i failed
    rw [failed] at validated
    exact validated
  · rename_i passed
    rw [passed] at validated
    have executed := (execute tx pid index).run_steps validated.sound
    split
    · rename_i failed
      rw [failed] at executed
      exact validated.trans executed
    · rename_i passed
      rw [passed] at executed
      exact validated.trans executed

variable {left right : Context Acc Ev}

theorem runTransaction_twin (twin : left.Twin right)
    (generator : Address) (pid : UInt8) (tx : Tx) (signers : List PublicHash) (index : UInt16) :
    (runTransaction generator pid tx signers index left).1 =
        (runTransaction generator pid tx signers index right).1 ∧
      (runTransaction generator pid tx signers index left).2.Twin
        (runTransaction generator pid tx signers index right).2 := by
  obtain ⟨valid, afterValid⟩ := (validate tx pid signers).run_twin twin
  unfold runTransaction
  rcases leftValid : (validate tx pid signers).run left with ⟨leftResult, left'⟩
  rcases rightValid : (validate tx pid signers).run right with ⟨rightResult, right'⟩
  rw [leftValid, rightValid] at valid afterValid
  subst valid
  cases leftResult with
  | error err => exact ⟨rfl, afterValid⟩
  | ok _ =>
    obtain ⟨done, afterDone⟩ := (execute tx pid index).run_twin afterValid
    dsimp only
    rcases leftDone : (execute tx pid index).run left' with ⟨leftResult, left''⟩
    rcases rightDone : (execute tx pid index).run right' with ⟨rightResult, right''⟩
    rw [leftDone, rightDone] at done afterDone
    subst done
    cases leftResult with
    | error err => exact ⟨rfl, afterDone⟩
    | ok _ =>
      dsimp only
      rw [afterDone.hasAccount]
      exact ⟨rfl, afterDone⟩

theorem executeTransaction_outcome (sound : ctx.Sound) (generator : Address) (pid : UInt8)
    (slot : UInt32) (txHash : Hash256) (tx : Tx) (signers : List PublicHash) (index : UInt16) :
    let outcome := executeTransaction generator pid slot txHash tx signers index ctx
    (ctx.loader.hasTimeSlot slot txHash = true ∧ outcome.1 = .error .usedTimeSlot ∧
        outcome.2.Sound ∧ outcome.2.parents.length = ctx.parents.length + 1) ∨
      (∃ err cache, outcome.1 = .error err ∧ cache.Agrees ctx.loader ∧
        outcome.2 = { ctx.touch with cache := cache }) ∨
      (ctx.loader.hasTimeSlot slot txHash = false ∧ outcome.1 = .ok () ∧
        ctx.Committed slot txHash outcome.2) := by
  intro outcome
  obtain ⟨cache, agrees, used⟩ := Context.useTimeSlot_snapshot sound slot txHash
  have openedSound := sound.opened slot txHash agrees
  have steps := runTransaction_steps openedSound generator pid tx signers index
  by_cases known : ctx.loader.hasTimeSlot slot txHash = true
  · left
    have run : outcome = (.error .usedTimeSlot, ctx.opened slot txHash cache) := by
      show executeTransaction generator pid slot txHash tx signers index ctx = _
      unfold executeTransaction
      dsimp only
      rw [used, known]
      rfl
    rw [run]
    exact ⟨known, rfl, openedSound, rfl⟩
  · right
    have run : outcome =
        ((runTransaction generator pid tx signers index (ctx.opened slot txHash cache)).1,
          (runTransaction generator pid tx signers index (ctx.opened slot txHash cache)).2.settle
            ctx.snapshot.1
            (runTransaction generator pid tx signers index (ctx.opened slot txHash cache)).1) := by
      show executeTransaction generator pid slot txHash tx signers index ctx = _
      unfold executeTransaction
      dsimp only
      rw [used, if_neg known]
    rw [run]
    generalize runTransaction generator pid tx signers index (ctx.opened slot txHash cache) = ran
      at steps
    rcases ran with ⟨result, inner⟩
    cases result with
    | error err =>
      left
      refine ⟨err, inner.cache, rfl, steps.loader ▸ steps.sound.agrees, ?_⟩
      simp only [Context.settle]
      rw [Context.revert_snapshot_step sound.top steps.parents]
      simp only [Context.touch, Context.mk.injEq, true_and]
      exact ⟨steps.loader, steps.genTargetHeight, steps.genLastHash, steps.genTimestamp,
        steps.dataHash⟩
    | ok _ =>
      right
      have merged := Context.commit_snapshot_step steps.parents
      refine ⟨by simpa using known, rfl, ?_⟩
      simp only [Context.settle]
      refine ⟨steps.sound.commit _, ?_, steps.loader, steps.genTargetHeight, steps.genLastHash,
        steps.genTimestamp, rfl, fun other otherKey => ?_⟩
      · rw [merged]
      · rw [merged]
        simp only [ContextData.mergeInto]
        rw [Context.hasKey_mergeTimeSlots, steps.timeSlotMap]
        simp only [Context.opened, hasKey_putKey]
        simp [hasKey]

theorem executeTransaction_twin (twin : left.Twin right)
    (generator : Address) (pid : UInt8) (slot : UInt32) (txHash : Hash256) (tx : Tx)
    (signers : List PublicHash) (index : UInt16) :
    (executeTransaction generator pid slot txHash tx signers index left).1 =
        (executeTransaction generator pid slot txHash tx signers index right).1 ∧
      (executeTransaction generator pid slot txHash tx signers index left).2.Twin
        (executeTransaction generator pid slot txHash tx signers index right).2 := by
  obtain ⟨leftCache, leftAgrees, leftUsed⟩ :=
    Context.useTimeSlot_snapshot twin.leftSound slot txHash
  obtain ⟨rightCache, rightAgrees, rightUsed⟩ :=
    Context.useTimeSlot_snapshot twin.rightSound slot txHash
  have opened := twin.opened slot txHash leftAgrees rightAgrees
  unfold executeTransaction
  dsimp only
  rw [leftUsed, rightUsed, twin.loader_eq]
  by_cases known : left.loader.hasTimeSlot slot txHash = true
  · rw [if_pos known]
    exact ⟨rfl, opened⟩
  · rw [if_neg known, ← twin.snapshot.1]
    obtain ⟨result, after⟩ := runTransaction_twin opened generator pid tx signers index
    dsimp only
    rw [← result]
    exact ⟨rfl, after.settle _ _⟩

variable (hooks : List (Prog Acc Ev))

theorem runHooks_steps (sound : ctx.Sound) : ctx.Steps (runHooks hooks ctx).2 := by
  induction hooks generalizing ctx with
  | nil => exact Context.Steps.refl sound
  | cons hook rest ih =>
    have ran := hook.run_steps sound
    unfold runHooks
    split
    · rename_i failed
      rw [failed] at ran
      exact ran
    · rename_i passed
      rw [passed] at ran
      split
      · exact ran
      · exact ran.trans (ih ran.sound)

theorem runHooks_twin (twin : left.Twin right) :
    (runHooks hooks left).1 = (runHooks hooks right).1 ∧
      (runHooks hooks left).2.Twin (runHooks hooks right).2 := by
  induction hooks generalizing left right with
  | nil => exact ⟨rfl, twin⟩
  | cons hook rest ih =>
    obtain ⟨result, after⟩ := hook.run_twin twin
    unfold runHooks
    rcases leftRun : hook.run left with ⟨leftResult, left'⟩
    rcases rightRun : hook.run right with ⟨rightResult, right'⟩
    rw [leftRun, rightRun] at result after
    dsimp only at result after
    subst result
    cases leftResult with
    | error err => exact ⟨rfl, after⟩
    | ok _ =>
      have size : left'.stackSize = right'.stackSize := by
        rw [after.same]
        rfl
      dsimp only
      rw [size]
      split
      · exact ⟨rfl, after⟩
      · exact ih after

/-- Two runs that differ at most in what the caches remember. -/
def Alike (one other : Except Err Unit × Context Acc Ev) : Prop :=
  one.1 = other.1 ∧ one.2.Twin other.2

omit [Account Acc] [Event Ev] [Base58] in
theorem Alike.andThen {one other : Except Err Unit × Context Acc Ev} (alike : Alike one other)
    {next : Context Acc Ev → Except Err Unit × Context Acc Ev}
    (rest : ∀ {left right}, left.Twin right → Alike (next left) (next right)) :
    let andThen : Except Err Unit × Context Acc Ev → Except Err Unit × Context Acc Ev
      | (.error err, ctx) => (.error err, ctx)
      | (.ok _, ctx) => next ctx
    Alike (andThen one) (andThen other) := by
  obtain ⟨result, left⟩ := one
  obtain ⟨_, right⟩ := other
  obtain ⟨same, after⟩ := alike
  cases same
  cases result with
  | error err => exact ⟨rfl, after⟩
  | ok _ => exact rest after

section Loop

variable (cn : Chain Acc Ev Tx) (generator : Address) (currentSlot : UInt32)

theorem executeTransactions_cons (entry : TxEntry Tx) (rest : List (TxEntry Tx)) (i : Nat)
    (ctx after : Context Acc Ev) :
    cn.executeTransactions generator currentSlot (entry :: rest) i ctx = (.ok (), after) ↔
      outsideWindow currentSlot (toTimeSlot (timestamp entry.tx)) = false ∧
      cn.hasProcess (processOf entry.t) = true ∧
      ∃ mid, executeTransaction generator (processOf entry.t)
          (toTimeSlot (timestamp entry.tx)) entry.txHash entry.tx entry.signers
          (UInt16.ofNat i) ctx = (.ok (), mid) ∧
        cn.executeTransactions generator currentSlot rest (i + 1) mid = (.ok (), after) := by
  rw [executeTransactions]
  cases outsideWindow currentSlot (toTimeSlot (timestamp entry.tx)) with
  | true => simp
  | false =>
    cases cn.hasProcess (processOf entry.t) with
    | false => simp
    | true =>
      rcases executeTransaction generator (processOf entry.t)
        (toTimeSlot (timestamp entry.tx)) entry.txHash entry.tx entry.signers
        (UInt16.ofNat i) ctx with ⟨result, mid⟩
      cases result with
      | error err => simp
      | ok _ => simp

theorem executeTransactions_append (entries more : List (TxEntry Tx)) (i : Nat)
    (ctx after : Context Acc Ev) :
    cn.executeTransactions generator currentSlot (entries ++ more) i ctx = (.ok (), after) ↔
      ∃ mid, cn.executeTransactions generator currentSlot entries i ctx = (.ok (), mid) ∧
        cn.executeTransactions generator currentSlot more (i + entries.length) mid =
          (.ok (), after) := by
  induction entries generalizing i ctx with
  | nil => simp [executeTransactions]
  | cons entry entries ih =>
    have next : i + 1 + entries.length = i + (entry :: entries).length := by
      rw [List.length_cons]
      omega
    simp only [List.cons_append, executeTransactions_cons, ih, next]
    constructor
    · rintro ⟨inside, known, first, ran, mid, before, rest⟩
      exact ⟨mid, ⟨inside, known, first, ran, before⟩, rest⟩
    · rintro ⟨mid, ⟨inside, known, first, ran, before⟩, rest⟩
      exact ⟨inside, known, first, ran, mid, before, rest⟩

end Loop

variable [HashFunction] [Msgpack] {cn : Chain Acc Ev Tx}

omit [Account Acc] [Event Ev] [Base58] in
theorem validateTransactionSignatures_ok {chainID : UInt8} {b : Block Tx}
    {sp : Option SignerProvider} {entries : List (TxEntry Tx)}
    (made : (zipTransactions b).mapM (cn.entryOf chainID sp) = .ok entries)
    (root : buildLevelRoot (b.header.prevHash :: entries.map TxEntry.txHash) =
      .ok b.header.levelRootHash) :
    cn.validateTransactionSignatures chainID b sp = .ok entries := by
  unfold validateTransactionSignatures
  rw [made]
  dsimp only
  rw [root]
  exact if_neg fun different => different rfl

theorem executeBlockOnContext_ok (chainID : UInt8) (b : Block Tx) (sp : Option SignerProvider)
    (ctx after : Context Acc Ev) :
    cn.executeBlockOnContext chainID b sp ctx = (.ok (), after) ↔
      ∃ entries start mid, cn.validateTransactionSignatures chainID b sp = .ok entries ∧
        runHooks (cn.hooks (·.beforeExecuteTransactions)) ctx = (.ok (), start) ∧
        cn.executeTransactions b.header.generator (toTimeSlot b.header.timestamp) entries 0 start =
          (.ok (), mid) ∧
        ¬mid.stackSize > 1 ∧
        runHooks (cn.hooks (·.afterExecuteTransactions b.view)) mid = (.ok (), after) := by
  unfold executeBlockOnContext
  cases validated : cn.validateTransactionSignatures chainID b sp with
  | error err => simp
  | ok entries =>
    rcases opened : runHooks (cn.hooks (·.beforeExecuteTransactions)) ctx with ⟨result, start⟩
    cases result with
    | error err => simp
    | ok _ =>
      rcases ran : cn.executeTransactions b.header.generator (toTimeSlot b.header.timestamp)
        entries 0 start with ⟨result, mid⟩
      cases result with
      | error err => simp [ran]
      | ok _ =>
        by_cases dirty : mid.stackSize ≤ 1
        · simp [ran, dirty, Nat.not_lt.mpr dirty]
        · simp [ran, dirty, Nat.not_le.mp dirty]

end Chain

end Fleta
