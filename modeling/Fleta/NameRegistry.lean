import Fleta.CreatorRejection
import Fleta.LayerOrder
import Fleta.Naming

/-!
# The register of account names in a context

Names are kept in a map of their own beside the accounts. Deleting an account removes its
name only from the top layer, so the name is found again in a layer below or in the
loader, and leads to an account that no longer exists; and an account created at an
address that was deleted stays hidden behind the deletion mark.

Where accounts are deleted only in the layer that created them, and no deleted address is
used again, the accounts of every layer and the names of every layer match.
-/

namespace Fleta

open Overlay SortedMap ContextData Loader

variable {Acc Ev : Type}

def Slot.through {Value Result : Type} (slot : Slot Acc Ev Value Result) (base : Result)
    (layers : List (ContextData Acc Ev)) : Result :=
  slot.result base (lookup (layers.map slot.layer))

section Stack

/-- An account that is put at an unmarked address lies over no mark. -/
theorem ContextData.Respects.get_put {top lower : ContextData Acc Ev} {addr : Address}
    (respects : top.Respects accountSlot lower) (unmarked : lower.deletedAccountMap.has addr = false)
    (acc : Acc) (other : Address) (marked : lower.deletedAccountMap.has other = true) :
    (top.accountMap.put addr acc).get other = none := by
  have different : addr ≠ other := by
    intro same
    rw [← same, unmarked] at marked
    cases marked
  rw [get_put_of_ne _ _ different]
  exact respects other marked

variable [Account Acc]

/-- The name of the account at an address, as the layers over the loader have it. -/
def Loader.nameOf (loader : Loader Acc) (layers : List (ContextData Acc Ev)) (addr : Address) :
    Option Bytes :=
  ((accountSlot addr).through (loader.account addr) layers).toOption.map Account.name

/-- The address to which the layers over the loader resolve a name. -/
def Loader.find (loader : Loader Acc) (layers : List (ContextData Acc Ev)) (name : Bytes) :
    Option Address :=
  ((accountNameSlot name).through (loader.addressByName name) layers).toOption

structure Loader.Registers [Base58] (loader : Loader Acc) (layers : List (ContextData Acc Ev)) :
    Prop where
  matched : Naming.Match (loader.nameOf layers) (loader.find layers)
  plain : ∀ addr name, loader.nameOf layers addr = some name → (Address.parse name).isOk = false

theorem Loader.Registers.congr [Base58] {loader : Loader Acc} {layers after : List (ContextData Acc Ev)}
    (registers : loader.Registers layers) (nameOf : loader.nameOf after = loader.nameOf layers)
    (find : loader.find after = loader.find layers) : loader.Registers after where
  matched := nameOf ▸ find ▸ registers.matched
  plain := nameOf ▸ registers.plain

structure Loader.Truthful (loader : Loader Acc) : Prop where
  existing : ∀ addr acc, loader.account addr = .ok acc → loader.hasAccount addr = .ok true
  names : loader.NamesCoherent
  named : ∀ name, loader.hasAccountName name = .ok true →
    ∃ addr, loader.addressByName name = .ok addr

def ContextData.registryPart (ctd : ContextData Acc Ev) :
    SortedMap Address Acc × SortedMap Address Acc × SortedMap Bytes Address :=
  (ctd.accountMap, ctd.deletedAccountMap, ctd.accountNameMap)

variable (loader : Loader Acc) (top : ContextData Acc Ev) (lower : List (ContextData Acc Ev))

theorem Loader.nameOf_cons (addr : Address) :
    loader.nameOf (top :: lower) addr =
      if top.deletedAccountMap.has addr then none
      else match top.accountMap.get addr with
        | some acc => some (Account.name acc)
        | none => loader.nameOf lower addr := by
  rw [nameOf, Slot.through, List.map_cons, lookup, Layer.answer]
  change Option.map _ (Except.toOption (Slot.result _ _ (Answer.orElse (if
    top.deletedAccountMap.has addr = true then _ else _) _))) = _
  cases top.deletedAccountMap.has addr with
  | true => rfl
  | false =>
    dsimp only [Slot.layer, accountSlot]
    cases top.accountMap.get addr <;> rfl

omit [Account Acc] in
theorem Loader.find_cons (name : Bytes) :
    loader.find (top :: lower) name = (top.accountNameMap.get name).or (loader.find lower name) := by
  rw [find, Slot.through, List.map_cons, lookup, Layer.answer]
  dsimp only [Slot.layer, accountNameSlot]
  cases top.accountNameMap.get name <;> rfl

end Stack

namespace Context

variable [Account Acc] [Base58]

/-- What holds of accounts and names at every depth of a stack: no account lies over a mark
of its address. -/
structure StackRegistered (loader : Loader Acc) (layers : List (ContextData Acc Ev)) : Prop where
  ordered : layers.Pairwise (ContextData.Respects accountSlot)
  apart : ∀ layer ∈ layers, layer.Respects accountSlot layer
  registers : ∀ lower, lower <:+ layers → loader.Registers lower

namespace StackRegistered

variable {loader : Loader Acc} {top parent : ContextData Acc Ev} {lower : List (ContextData Acc Ev)}

theorem tail (stack : StackRegistered loader (top :: lower)) : StackRegistered loader lower where
  ordered := (List.pairwise_cons.mp stack.ordered).2
  apart layer member := stack.apart layer (List.mem_cons_of_mem _ member)
  registers below suffix := stack.registers below (suffix.trans (List.suffix_cons _ _))

theorem cons (stack : StackRegistered loader lower)
    (respects : ∀ layer ∈ lower, top.Respects accountSlot layer)
    (apart : top.Respects accountSlot top)
    (registers : loader.Registers (top :: lower)) : StackRegistered loader (top :: lower) where
  ordered := List.pairwise_cons.mpr ⟨respects, stack.ordered⟩
  apart := List.forall_mem_cons.mpr ⟨apart, stack.apart⟩
  registers := by
    intro below suffix
    rcases List.suffix_cons_iff.mp suffix with rfl | deeper
    · exact registers
    · exact stack.registers below deeper

theorem withTop (stack : StackRegistered loader (top :: lower)) (isTop : Bool) :
    StackRegistered loader ({ top with isTop := isTop } :: lower) := by
  have whole := stack.registers _ List.suffix_rfl
  exact stack.tail.cons (List.pairwise_cons.mp stack.ordered).1 (stack.apart top List.mem_cons_self)
    (whole.congr rfl rfl)

theorem pushNew (stack : StackRegistered loader lower) (below : Option (ContextData Acc Ev)) :
    StackRegistered loader (.new below :: lower) := by
  have nameOf : loader.nameOf (.new below :: lower) = loader.nameOf lower := by
    have accounts : (ContextData.new below : ContextData Acc Ev).accountMap = .empty := rfl
    have marks : (ContextData.new below : ContextData Acc Ev).deletedAccountMap = .empty := rfl
    funext addr
    rw [nameOf_cons, accounts, marks, has_eq, get_empty]
    rfl
  have find : loader.find (.new below :: lower) = loader.find lower := by
    funext name
    rw [find_cons]
    change (empty.get name).or _ = _
    rw [get_empty, Option.none_or]
  have whole := stack.registers lower List.suffix_rfl
  exact stack.cons (fun layer _ addr _ => get_empty addr)
    (fun addr _ => get_empty addr) (whole.congr nameOf find)

theorem merge (stack : StackRegistered loader (top :: parent :: lower)) :
    StackRegistered loader (mergeInto top parent :: lower) := by
  have split := List.pairwise_cons.mp stack.ordered
  have clear := split.1 parent List.mem_cons_self
  have whole := stack.registers _ List.suffix_rfl
  have nameOf : loader.nameOf (mergeInto top parent :: lower) =
      loader.nameOf (top :: parent :: lower) := by
    funext addr
    rw [nameOf, nameOf, Slot.through, Slot.through, List.map_cons, List.map_cons,
      List.map_cons, (accountSlot_merges addr).merge,
      lookup_merge_of_respects (clear addr)]
  have find : loader.find (mergeInto top parent :: lower) =
      loader.find (top :: parent :: lower) := by
    funext name
    rw [find_cons, find_cons, find_cons]
    change ((putAll top.accountNameMap parent.accountNameMap).get name).or _ = _
    rw [get_putAll, Option.or_assoc]
  refine stack.tail.tail.cons (fun layer member => ?_) (fun addr => ?_) (whole.congr nameOf find)
  · exact ContextData.Respects.mergeInto accountSlot_merges
      (split.1 layer (List.mem_cons_of_mem _ member))
      ((List.pairwise_cons.mp split.2).1 layer member)
  · -- a mark of the parent is respected by both, a mark of the child clears the value
    rw [(accountSlot_merges addr).merge]
    intro marked
    have own := stack.apart parent (List.mem_cons_of_mem _ List.mem_cons_self) addr
    cases childMarks : ((accountSlot addr).layer top).deleted with
    | true => simp [Overlay.merge, childMarks]
    | false =>
      have parentMarks : ((accountSlot addr).layer parent).deleted = true := by
        simpa [Overlay.merge, childMarks] using marked
      simp [Overlay.merge, childMarks, own parentMarks, clear addr parentMarks]

theorem commitLoop (sn : Nat) (stack : StackRegistered loader (top :: lower)) :
    StackRegistered loader
      ((commitLoop sn top lower).1 :: (commitLoop sn top lower).2) :=
  commitLoop_keeps (StackRegistered loader) (fun _ _ _ => merge) sn stack

theorem revertLoop (sn : Nat) (stack : StackRegistered loader (top :: lower)) :
    StackRegistered loader
      ((revertLoop sn top lower).1 :: (revertLoop sn top lower).2) :=
  revertLoop_keeps (StackRegistered loader) (fun _ _ => tail) sn stack

end StackRegistered

structure Registered (ctx : Context Acc Ev) : Prop where
  sound : ctx.Sound
  loader : ctx.loader.Truthful
  stack : StackRegistered ctx.loader (ctx.top :: ctx.parents)

variable {ctx after : Context Acc Ev}

section

variable (registered : ctx.Registered)

include registered

theorem Registered.whole : ctx.loader.Registers (ctx.top :: ctx.parents) :=
  registered.stack.registers _ List.suffix_rfl

theorem Registered.respects : ∀ lower ∈ ctx.parents, ctx.top.Respects accountSlot lower :=
  (List.pairwise_cons.mp registered.stack.ordered).1

theorem Registered.apart : ctx.top.Respects accountSlot ctx.top :=
  registered.stack.apart ctx.top List.mem_cons_self

theorem Registered.step (sound : after.Sound)
    (loader : after.loader = ctx.loader) (parents : after.parents = ctx.parents)
    (respects : ∀ lower ∈ ctx.parents, after.top.Respects accountSlot lower)
    (apart : after.top.Respects accountSlot after.top)
    (registers : ctx.loader.Registers (after.top :: ctx.parents)) : after.Registered where
  sound := sound
  loader := loader ▸ registered.loader
  stack := by
    rw [loader, parents]
    exact registered.stack.tail.cons respects apart registers

/-- The accounts of the top layer stay, and the names lead where they led. -/
theorem Registered.sameAccounts (sound : after.Sound)
    (loader : after.loader = ctx.loader) (parents : after.parents = ctx.parents)
    (accounts : after.top.accountMap = ctx.top.accountMap)
    (marks : after.top.deletedAccountMap = ctx.top.deletedAccountMap)
    (find : ctx.loader.find (after.top :: ctx.parents) = ctx.loader.find (ctx.top :: ctx.parents)) :
    after.Registered := by
  have layer : ∀ addr, (accountSlot addr).layer after.top = (accountSlot addr).layer ctx.top := by
    intro addr
    change (⟨after.top.deletedAccountMap.has addr, after.top.accountMap.get addr⟩ : Layer Acc) = _
    rw [accounts, marks]
    rfl
  have nameOf : ctx.loader.nameOf (after.top :: ctx.parents) =
      ctx.loader.nameOf (ctx.top :: ctx.parents) := by
    funext addr
    rw [nameOf_cons, nameOf_cons, accounts, marks]
  refine registered.step sound loader parents (fun lower member addr => ?_) (fun addr => ?_)
    (registered.whole.congr nameOf find)
  · rw [layer]
    exact registered.respects lower member addr
  · rw [layer]
    exact registered.apart addr

theorem Registered.frame (sound : after.Sound)
    (loader : after.loader = ctx.loader) (parents : after.parents = ctx.parents)
    (top : after.top.registryPart = ctx.top.registryPart) : after.Registered := by
  have names : after.top.accountNameMap = ctx.top.accountNameMap := congrArg (·.2.2) top
  refine registered.sameAccounts sound loader parents (congrArg (·.1) top) (congrArg (·.2.1) top) ?_
  funext name
  rw [find_cons, find_cons, names]

end

omit [Base58] in
theorem Sound.nameOf_eq (sound : ctx.Sound) (addr : Address) :
    ctx.loader.nameOf (ctx.top :: ctx.parents) addr =
      (ctx.account addr).1.toOption.map Account.name := by
  rw [sound.account_fst]
  rfl

omit [Account Acc] [Base58] in
theorem Sound.find_eq (sound : ctx.Sound) (name : Bytes) :
    ctx.loader.find (ctx.top :: ctx.parents) name = (ctx.addressByName name).1.toOption := by
  rw [sound.addressByName_fst]
  rfl

omit [Base58] in
theorem account_nameOf (sound : ctx.Sound) (addr : Address) :
    ctx.loader.nameOf ((ctx.account addr).2.top :: ctx.parents) =
      ctx.loader.nameOf (ctx.top :: ctx.parents) := by
  funext other
  have marks : (ctx.account addr).2.top.deletedAccountMap = ctx.top.deletedAccountMap :=
    account_deletedAccountMap addr ctx
  cases held : (ctx.account addr).2.top.accountMap.get other with
  | some acc =>
    rcases account_accountMap addr ctx other acc held with own | ⟨same, found⟩
    · rw [nameOf_cons, nameOf_cons, marks, held, own]
    · have named := sound.nameOf_eq addr
      rw [found] at named
      have unmarked : ctx.top.deletedAccountMap.has addr = false := by
        rw [nameOf_cons] at named
        cases marked : ctx.top.deletedAccountMap.has addr with
        | false => rfl
        | true =>
          rw [marked] at named
          cases named
      rw [← same] at held ⊢
      rw [named, nameOf_cons, marks, held, unmarked]
      rfl
  | none =>
    have absent : ctx.top.accountMap.get other = none := by
      cases own : ctx.top.accountMap.get other with
      | none => rfl
      | some acc =>
        have kept := read_held (·.accountMap) (accountSlot addr) addr (fun _ => rfl)
          (fun _ _ => rfl) (ContextCache.account ctx.loader addr) ctx.touch other acc own
        change (ctx.account addr).2.top.accountMap.get other = some acc at kept
        rw [held] at kept
        cases kept
    rw [nameOf_cons, nameOf_cons, marks, held, absent]

omit [Account Acc] [Base58] in
theorem addressByName_find (sound : ctx.Sound) (name : Bytes) :
    ctx.loader.find ((ctx.addressByName name).2.top :: ctx.parents) =
      ctx.loader.find (ctx.top :: ctx.parents) := by
  funext other
  rw [find_cons, find_cons]
  cases own : ctx.top.accountNameMap.get other with
  | some addr =>
    have kept := read_held (·.accountNameMap) (accountNameSlot name) name
      (fun _ => rfl) (fun _ _ => rfl) (ContextCache.addressByName ctx.loader name) ctx other addr own
    change (ctx.addressByName name).2.top.accountNameMap.get other = some addr at kept
    rw [kept]
  | none =>
    cases held : (ctx.addressByName name).2.top.accountNameMap.get other with
    | none => rfl
    | some addr =>
      rcases read_copy (·.accountNameMap) (accountNameSlot name) name
        (fun _ _ => rfl) _ ctx other addr held with old | ⟨same, found⟩
      · rw [own] at old
        cases old
      · have known := sound.find_eq name
        rw [find_cons, same, own, Option.none_or] at known
        rw [Option.none_or, known, ← same]
        exact found.symm

namespace Registered

variable {addr : Address} {acc : Acc}

variable (registered : ctx.Registered)

include registered

theorem unmarked (found : (ctx.account addr).1 = .ok acc) :
    ∀ layer ∈ ctx.top :: ctx.parents, layer.deletedAccountMap.has addr = false := by
  intro layer member
  refine Bool.eq_false_iff.mpr fun marked => ?_
  have answered := lookup_marked registered.stack.ordered member marked
  rw [registered.sound.account_fst, answer, answered] at found
  cases found

theorem account (addr : Address) : (ctx.account addr).2.Registered := by
  have steps := account_steps registered.sound addr
  have marks : (ctx.account addr).2.top.deletedAccountMap = ctx.top.deletedAccountMap :=
    account_deletedAccountMap addr ctx
  have names : (ctx.account addr).2.top.accountNameMap = ctx.top.accountNameMap :=
    read_top_frame (·.accountNameMap) _ _ (fun _ _ => rfl) ctx.touch
  have find : ctx.loader.find ((ctx.account addr).2.top :: ctx.parents) =
      ctx.loader.find (ctx.top :: ctx.parents) := by
    funext name
    rw [find_cons, find_cons, names]
  -- a copy is made of an account that no layer marks
  have respects : ∀ lower ∈ ctx.top :: ctx.parents, ctx.top.Respects accountSlot lower →
      (ctx.account addr).2.top.Respects accountSlot lower := by
    intro lower member old other marked
    change (ctx.account addr).2.top.accountMap.get other = none
    cases held : (ctx.account addr).2.top.accountMap.get other with
    | none => rfl
    | some acc =>
      rcases account_accountMap addr ctx other acc held with own | ⟨same, found⟩
      · have absent : ctx.top.accountMap.get other = none := old other marked
        rw [absent] at own
        cases own
      · have clear := registered.unmarked found lower member
        rw [same] at clear
        exact absurd marked (Bool.eq_false_iff.mp clear)
  refine registered.step steps.sound steps.loader steps.parents (fun lower member => ?_) ?_
    (registered.whole.congr (account_nameOf registered.sound addr) find)
  · exact respects lower (List.mem_cons_of_mem _ member) (registered.respects lower member)
  · intro other marked
    have top := respects ctx.top List.mem_cons_self (registered.apart)
    refine top other ?_
    change ctx.top.deletedAccountMap.has other = true
    rw [← marks]
    exact marked

theorem addressByName (name : Bytes) : (ctx.addressByName name).2.Registered := by
  have steps := addressByName_steps registered.sound name
  refine registered.sameAccounts steps.sound steps.loader steps.parents ?_ ?_
    (addressByName_find registered.sound name)
  · exact read_top_frame (·.accountMap) _ _ (fun _ _ => rfl) ctx
  · exact read_top_frame (·.deletedAccountMap) _ _ (fun _ _ => rfl) ctx

theorem nameless (unused : ctx.hasAccount addr ≠ .ok true) :
    ctx.loader.nameOf (ctx.top :: ctx.parents) addr = none := by
  rw [registered.sound.nameOf_eq]
  cases found : (ctx.account addr).1 with
  | error err => rfl
  | ok acc =>
    refine absurd ?_ unused
    rw [registered.sound.account_fst, answer] at found
    rw [registered.sound.hasAccount_eq registered.loader.existing]
    refine (hasKey_eq (accountSlot addr) _ (fun _ => has_eq _ _) _ _).trans ?_
    cases answered : lookup ((ctx.top :: ctx.parents).map (accountSlot addr).layer) with
    | deleted =>
      rw [answered] at found
      cases found
    | value held => rfl
    | silent =>
      rw [answered] at found
      exact registered.loader.existing addr acc found

theorem hasAccountName_iff (name : Bytes) :
    ctx.hasAccountName name = .ok true ↔ ∃ addr, (ctx.addressByName name).1 = .ok addr := by
  have checked := hasKey_eq (accountNameSlot name)
    (·.accountNameMap.has name) (fun _ => has_eq _ _) (ctx.loader.hasAccountName name)
    (ctx.top :: ctx.parents)
  rw [registered.sound.hasAccountName_eq registered.loader.names,
    registered.sound.addressByName_fst, answer]
  refine (Eq.congr_left checked).trans ?_
  cases answered : lookup ((ctx.top :: ctx.parents).map (accountNameSlot name).layer) with
  | deleted =>
    refine absurd answered (lookup_unmarked fun layer _ => ?_)
    rfl
  | value addr => exact ⟨fun _ => ⟨addr, rfl⟩, fun _ => rfl⟩
  | silent =>
    refine ⟨registered.loader.named name, ?_⟩
    rintro ⟨addr, resolved⟩
    exact registered.loader.names name addr resolved

theorem free {name : Bytes} (unknown : ctx.hasAccountName name ≠ .ok true) :
    ctx.loader.find (ctx.top :: ctx.parents) name = none := by
  rw [registered.sound.find_eq]
  cases found : (ctx.addressByName name).1 with
  | error err => rfl
  | ok addr => exact absurd ((registered.hasAccountName_iff name).mpr ⟨addr, found⟩) unknown

theorem insertAccount (tolerated : Err → Bool)
    (unused : ∀ layer ∈ ctx.top :: ctx.parents,
      layer.deletedAccountMap.has (Account.address acc) = false) :
    (ctx.insertAccount tolerated acc).2.Registered := by
  have steps := insertAccount_steps registered.sound tolerated acc
  rcases insertAccount_outcome tolerated acc ctx with ⟨err, failed⟩ | ⟨admits, inserted⟩
  · rw [failed] at steps ⊢
    exact registered.frame steps.sound rfl rfl rfl
  · rw [inserted] at steps ⊢
    have nameless := registered.nameless admits.unused
    have nameOf : ctx.loader.nameOf
        ({ ctx.top with
            accountMap := ctx.top.accountMap.put (Account.address acc) acc
            accountNameMap :=
              ctx.top.accountNameMap.put (Account.name acc) (Account.address acc) } :: ctx.parents) =
        Function.update (ctx.loader.nameOf (ctx.top :: ctx.parents)) (Account.address acc)
          (some (Account.name acc)) := by
      funext addr
      rw [nameOf_cons]
      by_cases same : addr = Account.address acc
      · rw [same, Function.update_self, get_put_self, unused ctx.top List.mem_cons_self]
        rfl
      · have different : Account.address acc ≠ addr := fun equal => same equal.symm
        rw [Function.update_of_ne same, get_put_of_ne _ _ different, nameOf_cons]
    have find : ctx.loader.find
        ({ ctx.top with
            accountMap := ctx.top.accountMap.put (Account.address acc) acc
            accountNameMap :=
              ctx.top.accountNameMap.put (Account.name acc) (Account.address acc) } :: ctx.parents) =
        Function.update (ctx.loader.find (ctx.top :: ctx.parents)) (Account.name acc)
          (some (Account.address acc)) := by
      funext name
      rw [find_cons]
      by_cases same : name = Account.name acc
      · rw [same, Function.update_self, get_put_self]
        rfl
      · have different : Account.name acc ≠ name := fun equal => same equal.symm
        rw [Function.update_of_ne same, get_put_of_ne _ _ different, find_cons]
    -- the new account lies over no mark
    refine registered.step steps.sound rfl rfl (fun lower member => ?_) ?_ ⟨?_, ?_⟩
    · exact (registered.respects lower member).get_put
        (unused lower (List.mem_cons_of_mem _ member)) acc
    · exact registered.apart.get_put (unused ctx.top List.mem_cons_self) acc
    · rw [nameOf, find]
      exact registered.whole.matched.insert nameless (registered.free admits.free)
    · intro addr name named
      rw [nameOf] at named
      by_cases same : addr = Account.address acc
      · rw [same, Function.update_self] at named
        cases named
        exact admits.plain
      · rw [Function.update_of_ne same] at named
        exact registered.whole.plain addr name named

theorem updateAccount {change : Acc → Acc}
    (keeps : ∀ acc, Account.name (change acc) = Account.name acc) :
    (ctx.updateAccount addr change).2.Registered := by
  have steps := updateAccount_steps registered.sound addr change
  have read := registered.account addr
  rcases updateAccount_outcome addr change ctx with ⟨err, _, failed⟩ | ⟨acc, found, updated⟩
  · rw [failed]
    exact read
  · have top := (account_steps registered.sound addr)
    have nameOf : (ctx.account addr).2.loader.nameOf
        ({ (ctx.account addr).2.top with
            accountMap := (ctx.account addr).2.top.accountMap.put addr (change acc) } ::
          (ctx.account addr).2.parents) =
        (ctx.account addr).2.loader.nameOf
          ((ctx.account addr).2.top :: (ctx.account addr).2.parents) := by
      funext other
      by_cases same : addr = other
      · have named : (ctx.account addr).2.loader.nameOf
            ((ctx.account addr).2.top :: (ctx.account addr).2.parents) addr =
              some (Account.name acc) := by
          rw [top.loader, top.parents, account_nameOf registered.sound,
            registered.sound.nameOf_eq, found]
          rfl
        rw [← same, named, nameOf_cons, get_put_self,
          account_deletedAccountMap, registered.unmarked found ctx.top List.mem_cons_self]
        exact congrArg some (keeps acc)
      · rw [nameOf_cons, nameOf_cons, get_put_of_ne _ _ same]
    rw [updated] at steps ⊢
    refine read.step steps.sound rfl rfl (fun lower member => ?_) ?_ (read.whole.congr nameOf rfl)
    · exact (read.respects lower member).get_put
        (registered.unmarked found lower (List.mem_cons_of_mem _ (top.parents ▸ member))) _
    · refine read.apart.get_put ?_ _
      rw [account_deletedAccountMap]
      exact registered.unmarked found ctx.top List.mem_cons_self

theorem erase
    (named : ctx.loader.nameOf (ctx.top :: ctx.parents) (Account.address acc) =
      some (Account.name acc)) (unknown : ctx.loader.find ctx.parents (Account.name acc) = none)
    (top : ContextData Acc Ev)
    (accounts : top.accountMap = ctx.top.accountMap.delete (Account.address acc))
    (marks : top.deletedAccountMap = ctx.top.deletedAccountMap.put (Account.address acc) acc)
    (names : top.accountNameMap = ctx.top.accountNameMap.delete (Account.name acc))
    (sound : ({ ctx with top := top } : Context Acc Ev).Sound) :
    ({ ctx with top := top } : Context Acc Ev).Registered := by
  have nameOf : ctx.loader.nameOf (top :: ctx.parents) =
      Function.update (ctx.loader.nameOf (ctx.top :: ctx.parents)) (Account.address acc) none := by
    funext addr
    rw [nameOf_cons, accounts, marks, has_eq]
    by_cases same : addr = Account.address acc
    · rw [same, Function.update_self, get_put_self]
      rfl
    · have different : Account.address acc ≠ addr := fun equal => same equal.symm
      rw [Function.update_of_ne same, get_put_of_ne _ _ different,
        get_delete_of_ne _ different, nameOf_cons, has_eq]
  have find : ctx.loader.find (top :: ctx.parents) =
      Function.update (ctx.loader.find (ctx.top :: ctx.parents)) (Account.name acc) none := by
    funext name
    rw [find_cons, names]
    by_cases same : name = Account.name acc
    · rw [same, Function.update_self, get_delete_self]
      exact unknown
    · have different : Account.name acc ≠ name := fun equal => same equal.symm
      rw [Function.update_of_ne same, get_delete_of_ne _ different, find_cons]
  refine registered.step sound rfl rfl (fun lower member addr marked => ?_)
    (fun addr marked => ?_) ⟨?_, ?_⟩
  · change top.accountMap.get addr = none
    rw [accounts, get_delete]
    split
    · rfl
    · exact registered.respects lower member addr marked
  · change top.deletedAccountMap.has addr = true at marked
    change top.accountMap.get addr = none
    rw [accounts, get_delete]
    split
    · rfl
    · rename_i different
      rw [marks, has_eq, get_put_of_ne _ _ different] at marked
      refine registered.apart addr ?_
      exact (has_eq _ _).trans marked
  · rw [nameOf, find]
    exact registered.whole.matched.remove named
  · intro addr name held
    rw [nameOf] at held
    by_cases same : addr = Account.address acc
    · rw [same, Function.update_self] at held
      cases held
    · rw [Function.update_of_ne same] at held
      exact registered.whole.plain addr name held

/-- The name of the deleted account must be known to the top layer only. -/
theorem deleteAccount
    (own : ∀ name, ctx.loader.nameOf (ctx.top :: ctx.parents) (Account.address acc) = some name →
      name = Account.name acc ∧ ctx.loader.find ctx.parents name = none) :
    (ctx.deleteAccount acc).2.Registered := by
  have steps := deleteAccount_steps registered.sound acc
  have read := registered.account (Account.address acc)
  have first := account_steps registered.sound (Account.address acc)
  rcases deleteAccount_outcome acc ctx with ⟨err, _, failed⟩ | ⟨found, loaded, deleted⟩
  · rw [failed]
    exact read
  · have named : ctx.loader.nameOf (ctx.top :: ctx.parents) (Account.address acc) =
        some (Account.name found) := by
      rw [registered.sound.nameOf_eq, loaded]
      rfl
    obtain ⟨same, unknown⟩ := own _ named
    rw [same] at named unknown
    rw [deleted] at steps ⊢
    refine read.erase ?_ ?_ _ rfl rfl rfl steps.sound
    · rw [first.loader, first.parents, account_nameOf registered.sound]
      exact named
    · rw [first.loader, first.parents]
      exact unknown

theorem snapshot : ctx.snapshot.2.Registered :=
  ⟨registered.sound.snapshot, registered.loader,
    (registered.stack.withTop false).pushNew (some ctx.top)⟩

theorem commit (sn : Nat) : (ctx.commit sn).Registered :=
  ⟨registered.sound.commit sn, registered.loader, (registered.stack.commitLoop sn).withTop true⟩

theorem revert (sn : Nat) : (ctx.revert sn).Registered :=
  ⟨registered.sound.revert sn, registered.loader, (registered.stack.revertLoop sn).withTop true⟩

end Registered

end Context

end Fleta
