import Fleta.Operations

/-!
# Programs over a context

Transactions and process hooks are deterministic programs over the account, name,
account-data, process-data and event operations of a context. A program sees nothing
but the results of its operations. It works in the top layer, it comes back to the
layer it started in, and what it does is independent of what the cache remembers.
-/

namespace Fleta

open Context ContextCache ContextData

variable {Acc Ev : Type}

structure Env where
  chainID : UInt8
  name : Bytes
  version : UInt16
  targetHeight : UInt32
  lastHash : Hash256
  lastTimestamp : UInt64

def Context.env (ctx : Context Acc Ev) : Env where
  chainID := ctx.loader.chainID
  name := ctx.loader.name
  version := ctx.loader.version
  targetHeight := ctx.genTargetHeight
  lastHash := ctx.genLastHash
  lastTimestamp := ctx.genTimestamp

inductive Prog (Acc Ev : Type) where
  | done (result : Except Err Unit)
  | env (next : Env → Prog Acc Ev)
  | account (addr : Address) (next : Except Err Acc → Prog Acc Ev)
  | updateAccount (addr : Address) (change : Acc → Acc) (next : Except Err Acc → Prog Acc Ev)
  | hasAccount (addr : Address) (next : Except Err Bool → Prog Acc Ev)
  | addressByName (name : Bytes) (next : Except Err Address → Prog Acc Ev)
  | hasAccountName (name : Bytes) (next : Except Err Bool → Prog Acc Ev)
  | createAccount (acc : Acc) (next : Except Err Unit → Prog Acc Ev)
  | createAccountIgnoreDelete (acc : Acc) (next : Except Err Unit → Prog Acc Ev)
  | deleteAccount (acc : Acc) (next : Except Err Unit → Prog Acc Ev)
  | accountData (addr : Address) (pid : UInt8) (name : Bytes) (next : Bytes → Prog Acc Ev)
  | setAccountData (addr : Address) (pid : UInt8) (name value : Bytes) (next : Prog Acc Ev)
  | processData (pid : UInt8) (name : Bytes) (next : Bytes → Prog Acc Ev)
  | setProcessData (pid : UInt8) (name value : Bytes) (next : Prog Acc Ev)
  | emitEvent (event : Ev) (next : Prog Acc Ev)
  /-- A body run in its own snapshot, which is committed if the body succeeds and
  reverted if it fails. -/
  | within (body : Prog Acc Ev) (next : Except Err Unit → Prog Acc Ev)

def Context.settle (sn : Nat) (result : Except Err Unit) (ctx : Context Acc Ev) : Context Acc Ev :=
  match result with
  | .ok _ => ctx.commit sn
  | .error _ => ctx.revert sn

def Prog.run [Account Acc] [Event Ev] [Base58] :
    Prog Acc Ev → Context Acc Ev → Except Err Unit × Context Acc Ev
  | done result, ctx => (result, ctx)
  | env next, ctx => run (next ctx.env) ctx
  | account addr next, ctx =>
    let (result, ctx) := ctx.account addr
    run (next result) ctx
  | updateAccount addr change next, ctx =>
    let (result, ctx) := ctx.updateAccount addr change
    run (next result) ctx
  | hasAccount addr next, ctx => run (next (ctx.hasAccount addr)) ctx
  | addressByName name next, ctx =>
    let (result, ctx) := ctx.addressByName name
    run (next result) ctx
  | hasAccountName name next, ctx => run (next (ctx.hasAccountName name)) ctx
  | createAccount acc next, ctx =>
    let (result, ctx) := ctx.createAccount acc
    run (next result) ctx
  | createAccountIgnoreDelete acc next, ctx =>
    let (result, ctx) := ctx.createAccountIgnoreDelete acc
    run (next result) ctx
  | deleteAccount acc next, ctx =>
    let (result, ctx) := ctx.deleteAccount acc
    run (next result) ctx
  | accountData addr pid name next, ctx =>
    let (value, ctx) := ctx.accountData addr pid name
    run (next value) ctx
  | setAccountData addr pid name value next, ctx =>
    run next (ctx.setAccountData addr pid name value)
  | processData pid name next, ctx =>
    let (value, ctx) := ctx.processData pid name
    run (next value) ctx
  | setProcessData pid name value next, ctx => run next (ctx.setProcessData pid name value)
  | emitEvent event next, ctx => run next (ctx.emitEvent event)
  | within body next, ctx =>
    let (sn, ctx) := ctx.snapshot
    let (result, ctx) := run body ctx
    run (next result) (ctx.settle sn result)

namespace Context

variable {ctx : Context Acc Ev} {inner : Context Acc Ev}

theorem commit_snapshot_step (stack : inner.parents = ctx.snapshot.2.parents) :
    inner.commit ctx.snapshot.1 =
      { inner.touch with
        top := { mergeInto inner.top { ctx.top with isTop := false } with isTop := true }
        parents := ctx.parents } := by
  have parents : inner.parents = { ctx.top with isTop := false } :: ctx.parents := stack
  have stop : ∀ ctd, commitLoop ctx.snapshot.1 ctd ctx.parents = (ctd, ctx.parents) := by
    intro ctd
    cases rest : ctx.parents with
    | nil => rfl
    | cons parent rest' =>
      rw [commitLoop, if_neg]
      simp [snapshot, stackSize, rest]
  unfold commit
  rw [parents, commitLoop, if_pos (by simp [snapshot, stackSize]), stop]

theorem revert_snapshot_step (isTop : ctx.top.isTop = true)
    (stack : inner.parents = ctx.snapshot.2.parents) :
    inner.revert ctx.snapshot.1 = { inner.touch with top := ctx.top, parents := ctx.parents } := by
  have parents : inner.parents = { ctx.top with isTop := false } :: ctx.parents := stack
  have stop : ∀ ctd, revertLoop ctx.snapshot.1 ctd ctx.parents = (ctd, ctx.parents) := by
    intro ctd
    cases rest : ctx.parents with
    | nil => rfl
    | cons parent rest' =>
      rw [revertLoop, if_neg]
      simp [snapshot, stackSize, rest]
  unfold revert
  rw [parents, revertLoop, if_pos (by simp [snapshot, stackSize]), stop]
  simp only [← isTop]

theorem Steps.andThen {after : Context Acc Ev} (step : ctx.Steps inner)
    (next : inner.Sound → inner.Steps after) : ctx.Steps after :=
  step.trans (next step.sound)

theorem mergeTimeSlots_empty (parent : TimeSlotMap) :
    mergeTimeSlots .empty parent = parent := rfl

theorem settle_steps (sound : ctx.Sound)
    (steps : ctx.snapshot.2.Steps inner) (result : Except Err Unit) :
    ctx.Steps (inner.settle ctx.snapshot.1 result) := by
  have unused : inner.top.timeSlotMap = .empty := steps.timeSlotMap
  cases result with
  | ok _ =>
    have merged := commit_snapshot_step steps.parents
    refine { steps with
      sound := steps.sound.commit _, parents := ?_, timeSlotMap := ?_, unhashed := fun _ => rfl }
    · rw [settle, merged]
    · rw [settle, merged]
      simp only [mergeInto, unused]
      exact mergeTimeSlots_empty _
  | error err =>
    have dropped := revert_snapshot_step sound.top steps.parents
    refine { steps with
      sound := steps.sound.revert _, parents := ?_, timeSlotMap := ?_, unhashed := fun _ => rfl }
    all_goals rw [settle, dropped]

end Context

section Run

variable [Account Acc] [Event Ev] [Base58]

/-- A program steps from a sound context to a sound context with the same stack below
the top and the same used time slots. -/
theorem Prog.run_steps (prog : Prog Acc Ev) {ctx : Context Acc Ev} (sound : ctx.Sound) :
    ctx.Steps (prog.run ctx).2 := by
  induction prog generalizing ctx with
  | done result => exact Context.Steps.refl sound
  | env next ih => exact ih _ sound
  | account addr next ih => exact (account_steps sound addr).andThen (ih _)
  | updateAccount addr change next ih =>
    exact (updateAccount_steps sound addr change).andThen (ih _)
  | hasAccount addr next ih => exact ih _ sound
  | addressByName name next ih => exact (addressByName_steps sound name).andThen (ih _)
  | hasAccountName name next ih => exact ih _ sound
  | createAccount acc next ih => exact (insertAccount_steps sound _ acc).andThen (ih _)
  | createAccountIgnoreDelete acc next ih =>
    exact (insertAccount_steps sound _ acc).andThen (ih _)
  | deleteAccount acc next ih => exact (deleteAccount_steps sound acc).andThen (ih _)
  | accountData addr pid name next ih =>
    exact (accountData_steps sound addr pid name).andThen (ih _)
  | setAccountData addr pid name value next ih =>
    exact (setAccountData_steps sound addr pid name value).andThen ih
  | processData pid name next ih =>
    exact (processData_steps sound pid name).andThen (ih _)
  | setProcessData pid name value next ih =>
    exact (setProcessData_steps sound pid name value).andThen ih
  | emitEvent event next ih => exact (emitEvent_steps sound event).andThen ih
  | within body next bodyIh nextIh =>
    exact (settle_steps sound (bodyIh sound.snapshot) _).andThen (nextIh _)

end Run

/-- A name that the loader resolves is a name it says to have. -/
def Loader.NamesCoherent (loader : Loader Acc) : Prop :=
  ∀ name addr, loader.addressByName name = .ok addr → loader.hasAccountName name = .ok true

/-- Two sound contexts that differ at most in what their caches remember. -/
structure Context.Twin (left right : Context Acc Ev) : Prop where
  leftSound : left.Sound
  rightSound : right.Sound
  coherent : left.loader.Coherent
  names : left.loader.NamesCoherent
  same : right = { left with cache := right.cache }

namespace Context.Twin

variable {Value Result : Type} {left right : Context Acc Ev}

theorem refl {ctx : Context Acc Ev} (sound : ctx.Sound) (coherent : ctx.loader.Coherent)
    (names : ctx.loader.NamesCoherent) : ctx.Twin ctx :=
  ⟨sound, sound, coherent, names, rfl⟩

variable (twin : left.Twin right)

include twin

theorem loader_eq : right.loader = left.loader := by rw [twin.same]

theorem step {left' right' : Context Acc Ev} (leftSteps : left.Steps left')
    (rightSteps : right.Steps right') (same : right' = { left' with cache := right'.cache }) :
    left'.Twin right' :=
  ⟨leftSteps.sound, rightSteps.sound, leftSteps.loader ▸ twin.coherent,
    leftSteps.loader ▸ twin.names, same⟩

theorem recache {cache : ContextCache Acc}
    (agrees : cache.Agrees left.loader) : ({ left with cache := cache } : Context Acc Ev).Twin right :=
  { twin with leftSound := { twin.leftSound with agrees := agrees } }

theorem touch : left.touch.Twin right.touch := by
  refine twin.step (.touch twin.leftSound) (.touch twin.rightSound) ?_
  rw [twin.same]
  rfl

theorem read (slot : Slot Acc Ev Value Result)
    (below : Loader Acc → ContextCache Acc → Result × ContextCache Acc) (base : Result)
    (loads : ∀ cache : ContextCache Acc, cache.Agrees left.loader →
      (below left.loader cache).1 = base ∧ (below left.loader cache).2.Agrees left.loader)
    (leftSound : (left.read slot (below left.loader)).2.Sound)
    (rightSound : (right.read slot (below right.loader)).2.Sound) :
    (left.read slot (below left.loader)).1 = (right.read slot (below right.loader)).1 ∧
      (left.read slot (below left.loader)).2.Twin (right.read slot (below right.loader)).2 := by
  have rightAgrees : right.cache.Agrees left.loader := twin.loader_eq ▸ twin.rightSound.agrees
  obtain ⟨leftCache, _, leftRead⟩ :=
    twin.leftSound.read slot (below left.loader) base (loads _ twin.leftSound.agrees)
  obtain ⟨rightCache, _, rightRead⟩ := twin.rightSound.read slot (below right.loader) base (by
      rw [twin.loader_eq]
      exact loads _ rightAgrees)
  rw [leftRead] at leftSound ⊢
  rw [rightRead] at rightSound ⊢
  refine ⟨?_, leftSound, rightSound, twin.coherent, twin.names, ?_⟩ <;>
  · rw [twin.same]
    rfl

variable (addr : Address)

theorem account :
    (left.account addr).1 = (right.account addr).1 ∧
      (left.account addr).2.Twin (right.account addr).2 :=
  twin.touch.read _ (fun loader => ContextCache.account loader addr) _
    (fun _ agrees => account_spec agrees addr)
    (account_steps twin.leftSound addr).sound (account_steps twin.rightSound addr).sound

theorem addressByName (name : Bytes) :
    (left.addressByName name).1 = (right.addressByName name).1 ∧
      (left.addressByName name).2.Twin (right.addressByName name).2 :=
  twin.read _ (fun loader => ContextCache.addressByName loader name) _
    (fun _ agrees => addressByName_spec agrees name)
    (addressByName_steps twin.leftSound name).sound (addressByName_steps twin.rightSound name).sound

variable (pid : UInt8)

theorem accountData (name : Bytes) :
    (left.accountData addr pid name).1 = (right.accountData addr pid name).1 ∧
      (left.accountData addr pid name).2.Twin (right.accountData addr pid name).2 :=
  twin.read _ (fun loader => ContextCache.accountData loader addr pid name) _
    (fun _ agrees => accountData_spec agrees addr pid name)
    (accountData_steps twin.leftSound addr pid name).sound
    (accountData_steps twin.rightSound addr pid name).sound

theorem processData (name : Bytes) :
    (left.processData pid name).1 = (right.processData pid name).1 ∧
      (left.processData pid name).2.Twin (right.processData pid name).2 :=
  twin.read _ (fun loader => ContextCache.processData loader pid name) _
    (fun _ agrees => processData_spec agrees pid name)
    (processData_steps twin.leftSound pid name).sound (processData_steps twin.rightSound pid name).sound

theorem hasAccount : left.hasAccount addr = right.hasAccount addr := by
  have leftBase := hasAccount_eq twin.leftSound.agrees twin.coherent addr
  have rightBase := hasAccount_eq
    (twin.loader_eq ▸ twin.rightSound.agrees : right.cache.Agrees left.loader) twin.coherent addr
  unfold Context.hasAccount
  rw [leftBase, twin.loader_eq, rightBase, twin.same]

theorem hasAccountName (name : Bytes) : left.hasAccountName name = right.hasAccountName name := by
  have base : ∀ cache : ContextCache Acc, cache.Agrees left.loader →
      cache.hasAccountName left.loader name = left.loader.hasAccountName name := by
    intro cache agrees
    unfold ContextCache.hasAccountName
    rw [SortedMap.has_eq]
    cases found : cache.accountNameMap.get name with
    | none => simp
    | some addr => simp [twin.names name addr (agrees.accountName name addr found)]
  unfold Context.hasAccountName
  rw [base _ twin.leftSound.agrees, twin.loader_eq,
    base _ (twin.loader_eq ▸ twin.rightSound.agrees), twin.same]

theorem insertAccount [Account Acc] [Base58] (tolerated : Err → Bool) (acc : Acc) :
    (left.insertAccount tolerated acc).1 = (right.insertAccount tolerated acc).1 ∧
      (left.insertAccount tolerated acc).2.Twin (right.insertAccount tolerated acc).2 := by
  have accounts := twin.touch.hasAccount (Account.address acc)
  have names := twin.touch.hasAccountName (Account.name acc)
  have target : right.touch.genTargetHeight = left.touch.genTargetHeight := by rw [twin.touch.same]
  have leftSteps := insertAccount_steps twin.leftSound tolerated acc
  have rightSteps := insertAccount_steps twin.rightSound tolerated acc
  -- both sides take the same branch, so the new contexts differ in the cache only
  suffices branches : (left.insertAccount tolerated acc).1 = (right.insertAccount tolerated acc).1 ∧
      (right.insertAccount tolerated acc).2 = { (left.insertAccount tolerated acc).2 with
          cache := (right.insertAccount tolerated acc).2.cache } from
    ⟨branches.1, twin.step leftSteps rightSteps branches.2⟩
  unfold Context.insertAccount
  dsimp only
  rw [target, ← accounts, ← names]
  have same : right.touch = { left.touch with cache := right.touch.cache } := twin.touch.same
  split
  · exact ⟨rfl, same⟩
  split
  · exact ⟨rfl, same⟩
  split
  · exact ⟨rfl, same⟩
  split
  · exact ⟨rfl, same⟩
  split
  · exact ⟨rfl, same⟩
  · refine ⟨rfl, ?_⟩
    rw [same]

/-- An operation that reads an account and, if it is there, changes the top layer. -/
theorem changeRead {addr : Address} {op : Context Acc Ev → Except Err Value × Context Acc Ev}
    (answer : Acc → Value) (change : Acc → ContextData Acc Ev → ContextData Acc Ev)
    (eq : ∀ ctx, op ctx = match ctx.account addr with
      | (.error err, ctx) => (.error err, ctx)
      | (.ok acc, ctx) => (.ok (answer acc), { ctx with top := change acc ctx.top }))
    (leftSteps : left.Steps (op left).2) (rightSteps : right.Steps (op right).2) :
    (op left).1 = (op right).1 ∧ (op left).2.Twin (op right).2 := by
  obtain ⟨result, after⟩ := twin.account addr
  have same := after.same
  suffices branches : (op left).1 = (op right).1 ∧
      (op right).2 = { (op left).2 with cache := (op right).2.cache } from
    ⟨branches.1, twin.step leftSteps rightSteps branches.2⟩
  rw [eq, eq]
  rcases leftRead : left.account addr with ⟨leftResult, leftAfter⟩
  rcases rightRead : right.account addr with ⟨rightResult, rightAfter⟩
  rw [leftRead, rightRead] at result same
  dsimp only at result same
  subst result
  cases leftResult with
  | error err => exact ⟨rfl, same⟩
  | ok found =>
    refine ⟨rfl, ?_⟩
    rw [same]

theorem deleteAccount [Account Acc] (acc : Acc) :
    (left.deleteAccount acc).1 = (right.deleteAccount acc).1 ∧
      (left.deleteAccount acc).2.Twin (right.deleteAccount acc).2 :=
  twin.changeRead (fun _ => ()) (fun _ top => { top with
      deletedAccountMap := top.deletedAccountMap.put (Account.address acc) acc
      accountMap := top.accountMap.delete (Account.address acc)
      accountNameMap := top.accountNameMap.delete (Account.name acc) })
    (fun _ => rfl) (deleteAccount_steps twin.leftSound acc) (deleteAccount_steps twin.rightSound acc)

theorem updateAccount (change : Acc → Acc) :
    (left.updateAccount addr change).1 = (right.updateAccount addr change).1 ∧
      (left.updateAccount addr change).2.Twin (right.updateAccount addr change).2 :=
  twin.changeRead id
    (fun found top => { top with accountMap := top.accountMap.put addr (change found) })
    (fun _ => rfl) (updateAccount_steps twin.leftSound addr change)
    (updateAccount_steps twin.rightSound addr change)

theorem setAccountData (name value : Bytes) :
    (left.setAccountData addr pid name value).Twin (right.setAccountData addr pid name value) := by
  refine twin.step (setAccountData_steps twin.leftSound addr pid name value)
    (setAccountData_steps twin.rightSound addr pid name value) ?_
  rw [twin.same]
  rfl

theorem setProcessData (name value : Bytes) :
    (left.setProcessData pid name value).Twin (right.setProcessData pid name value) := by
  refine twin.step (setProcessData_steps twin.leftSound pid name value)
    (setProcessData_steps twin.rightSound pid name value) ?_
  rw [twin.same]
  rfl

theorem emitEvent [Event Ev] (event : Ev) :
    (left.emitEvent event).Twin (right.emitEvent event) := by
  refine twin.step (emitEvent_steps twin.leftSound event) (emitEvent_steps twin.rightSound event) ?_
  rw [twin.same]
  rfl

theorem snapshot : left.snapshot.1 = right.snapshot.1 ∧ left.snapshot.2.Twin right.snapshot.2 := by
  have size : left.snapshot.1 = right.snapshot.1 := by
    rw [twin.same]
    rfl
  refine ⟨size, twin.leftSound.snapshot, twin.rightSound.snapshot, twin.coherent, twin.names, ?_⟩
  rw [twin.same]
  rfl

theorem settle (sn : Nat) (result : Except Err Unit) :
    (left.settle sn result).Twin (right.settle sn result) := by
  cases result with
  | ok _ =>
    refine ⟨twin.leftSound.commit sn, twin.rightSound.commit sn, twin.coherent, twin.names, ?_⟩
    rw [twin.same]
    rfl
  | error err =>
    refine ⟨twin.leftSound.revert sn, twin.rightSound.revert sn, twin.coherent, twin.names, ?_⟩
    rw [twin.same]
    rfl

end Context.Twin

/-- A program cannot tell two contexts apart that differ in their caches only. -/
theorem Prog.run_twin [Account Acc] [Event Ev] [Base58] (prog : Prog Acc Ev)
    {left right : Context Acc Ev} (twin : left.Twin right) :
    (prog.run left).1 = (prog.run right).1 ∧ (prog.run left).2.Twin (prog.run right).2 := by
  induction prog generalizing left right with
  | done result => exact ⟨rfl, twin⟩
  | env next ih =>
    have env : right.env = left.env := by
      rw [twin.same]
      rfl
    simp only [Prog.run, env]
    exact ih _ twin
  | account addr next ih =>
    obtain ⟨result, after⟩ := twin.account addr
    simp only [Prog.run, ← result]
    exact ih _ after
  | updateAccount addr change next ih =>
    obtain ⟨result, after⟩ := twin.updateAccount addr change
    simp only [Prog.run, ← result]
    exact ih _ after
  | hasAccount addr next ih =>
    simp only [Prog.run, ← twin.hasAccount addr]
    exact ih _ twin
  | addressByName name next ih =>
    obtain ⟨result, after⟩ := twin.addressByName name
    simp only [Prog.run, ← result]
    exact ih _ after
  | hasAccountName name next ih =>
    simp only [Prog.run, ← twin.hasAccountName name]
    exact ih _ twin
  | createAccount acc next ih =>
    obtain ⟨result, after⟩ := twin.insertAccount (fun err => err == .notExistAccount) acc
    simp only [Prog.run, Context.createAccount, ← result]
    exact ih _ after
  | createAccountIgnoreDelete acc next ih =>
    obtain ⟨result, after⟩ :=
      twin.insertAccount (fun err => err == .notExistAccount || err == .deletedAccount) acc
    simp only [Prog.run, Context.createAccountIgnoreDelete, ← result]
    exact ih _ after
  | deleteAccount acc next ih =>
    obtain ⟨result, after⟩ := twin.deleteAccount acc
    simp only [Prog.run, ← result]
    exact ih _ after
  | accountData addr pid name next ih =>
    obtain ⟨result, after⟩ := twin.accountData addr pid name
    simp only [Prog.run, ← result]
    exact ih _ after
  | setAccountData addr pid name value next ih => exact ih (twin.setAccountData addr pid name value)
  | processData pid name next ih =>
    obtain ⟨result, after⟩ := twin.processData pid name
    simp only [Prog.run, ← result]
    exact ih _ after
  | setProcessData pid name value next ih => exact ih (twin.setProcessData pid name value)
  | emitEvent event next ih => exact ih (twin.emitEvent event)
  | within body next bodyIh nextIh =>
    obtain ⟨number, pushed⟩ := twin.snapshot
    obtain ⟨result, after⟩ := bodyIh pushed
    simp only [Prog.run, ← number, ← result]
    exact nextIh _ (after.settle _ _)

end Fleta
