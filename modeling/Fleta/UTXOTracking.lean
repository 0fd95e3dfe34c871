import Fleta.CreatorRejection
import Fleta.LayerOrder

/-!
# What a context knows of UTXOs

Three maps of every layer speak of a UTXO: the copies that reads keep, the created outputs
and the marks of spent ones. `UTXO` asks the copies and the marks and then the loader;
`HasUTXO` asks all three maps and then only what the cache remembers.

Every sequence of operations keeps what the maps say in step with the loader, which gives
both answers in closed form.
-/

namespace Fleta

open Overlay ContextData Context SortedMap List

variable {Acc Ev : Type}

namespace ContextData

/-- What the UTXO operations see of a layer. -/
def utxoPart (ctd : ContextData Acc Ev) :
    SortedMap UInt64 UTXO × SortedMap UInt64 TxOut × SortedMap UInt64 UTXO :=
  (ctd.utxoMap, ctd.createdUTXOMap, ctd.deletedUTXOMap)

/-- Copies and marks are of UTXOs that were `read` from the loader, created ones are new
to it. -/
structure Tracks (loader : Loader Acc) (read : SortedMap UInt64 UTXO) (ctd : ContextData Acc Ev) :
    Prop where
  held : ∀ id utxo, ctd.utxoMap.get id = some utxo → read.get id = some utxo
  spent : ∀ id utxo, ctd.deletedUTXOMap.get id = some utxo → (read.get id).isSome = true
  created : ∀ id vout, ctd.createdUTXOMap.get id = some vout →
    loader.utxo id = .error .notExistUTXO

variable {loader : Loader Acc} {read : SortedMap UInt64 UTXO}

theorem Tracks.mergeInto {child parent : ContextData Acc Ev} (above : child.Tracks loader read)
    (below : parent.Tracks loader read) : (mergeInto child parent).Tracks loader read where
  held id utxo found := (merged_value found).elim (above.held id utxo) (below.held id utxo)
  spent id utxo found := by
    change (putAll child.deletedUTXOMap parent.deletedUTXOMap).get id = some utxo at found
    rw [get_putAll] at found
    cases marked : child.deletedUTXOMap.get id with
    | some spent => exact above.spent id spent marked
    | none =>
      rw [marked, Option.none_or] at found
      exact below.spent id utxo found
  created id vout found := (merged_value found).elim (above.created id vout) (below.created id vout)

theorem Tracks.mono {ctd : ContextData Acc Ev} {more : SortedMap UInt64 UTXO}
    (tracks : ctd.Tracks loader read)
    (reads : ∀ id utxo, read.get id = some utxo → more.get id = some utxo) :
    ctd.Tracks loader more where
  held id utxo found := reads id utxo (tracks.held id utxo found)
  spent id utxo found := by
    obtain ⟨_, cached⟩ := Option.isSome_iff_exists.mp (tracks.spent id utxo found)
    rw [reads id _ cached]
    rfl
  created := tracks.created

theorem utxoSlot_merges (id : UInt64) : (utxoSlot id : Slot Acc Ev UTXO (Except Err UTXO)).Merges :=
  ⟨fun _ _ => merged_layer _ _ _ _ id, fun _ _ => rfl⟩

end ContextData

namespace Context

def marks (id : UInt64) (ctx : Context Acc Ev) : Bool :=
  (ctx.top :: ctx.parents).any (·.deletedUTXOMap.has id)

def creates (id : UInt64) (ctx : Context Acc Ev) : Bool :=
  (ctx.top :: ctx.parents).any (·.createdUTXOMap.has id)

/-- What holds of the UTXOs of a context whatever was done with it. -/
structure TracksUTXOs (ctx : Context Acc Ev) : Prop where
  sound : ctx.Sound
  layers : ∀ layer ∈ ctx.top :: ctx.parents, layer.Tracks ctx.loader ctx.cache.utxoMap
  ordered : (ctx.top :: ctx.parents).Pairwise (ContextData.Respects utxoSlot)

theorem TracksUTXOs.new (loader : Loader Acc) : (new loader : Context Acc Ev).TracksUTXOs where
  sound := Sound.new loader
  layers := by
    intro layer member
    rw [show layer = .new none by simpa [Context.new] using member]
    constructor <;> simp [ContextData.new]
  ordered := by simp [Context.new]

variable {ctx : Context Acc Ev}

theorem TracksUTXOs.utxo_eq (tracks : ctx.TracksUTXOs) (id : UInt64) :
    (ctx.utxo id).1 = if ctx.marks id then .error .usedUTXO else ctx.loader.utxo id := by
  rw [tracks.sound.utxo_fst, answer]
  cases marked : ctx.marks id with
  | true =>
    obtain ⟨layer, member, mark⟩ := any_eq_true.mp marked
    rw [lookup_marked tracks.ordered member mark]
    rfl
  | false =>
    rw [if_neg Bool.false_ne_true]
    cases answered : lookup ((ctx.top :: ctx.parents).map (utxoSlot id).layer) with
    | silent => rfl
    | deleted =>
      refine absurd answered (lookup_unmarked fun layer member => ?_)
      exact Bool.eq_false_iff.mpr fun mark =>
        Bool.eq_false_iff.mp marked (any_eq_true.mpr ⟨layer, member, mark⟩)
    | value utxo =>
      obtain ⟨_, member, stored⟩ := lookup_value_held answered
      obtain ⟨layer, layered, rfl⟩ := mem_map.mp member
      have read := (tracks.layers layer layered).held id utxo stored
      exact (tracks.sound.agrees.utxo id utxo read).symm

/-- `HasUTXO` in closed form: the loader is never asked. -/
theorem TracksUTXOs.hasUTXO_eq (tracks : ctx.TracksUTXOs) (id : UInt64) :
    ctx.hasUTXO id =
      .ok (!ctx.marks id && (ctx.creates id || ctx.cache.utxoMap.has id)) := by
  have layers : ∀ stack : List (ContextData Acc Ev),
      (∀ layer ∈ stack, layer.Tracks ctx.loader ctx.cache.utxoMap) →
      stack.Pairwise (ContextData.Respects utxoSlot) →
      hasKey (·.deletedUTXOMap.has id)
          (fun ctd => ctd.utxoMap.has id || ctd.createdUTXOMap.has id) (ctx.cache.hasUTXO id) stack =
        .ok (!stack.any (·.deletedUTXOMap.has id) &&
          (stack.any (·.createdUTXOMap.has id) || ctx.cache.utxoMap.has id)) := by
    intro stack tracked ordered
    induction stack with
    | nil => rfl
    | cons layer lower ih =>
      have own := tracked layer mem_cons_self
      have split := pairwise_cons.mp ordered
      have rest := ih (fun below member => tracked below (mem_cons_of_mem _ member)) split.2
      rw [hasKey, any_cons, any_cons]
      cases marked : layer.deletedUTXOMap.has id with
      | true => rfl
      | false =>
        -- a layer that knows the UTXO itself has no mark below it
        have unmarked : (layer.utxoMap.has id || layer.createdUTXOMap.has id) = true →
            lower.any (·.deletedUTXOMap.has id) = false := by
          intro known
          refine Bool.eq_false_iff.mpr fun below => ?_
          obtain ⟨marking, member, mark⟩ := any_eq_true.mp below
          have uncopied : layer.utxoMap.get id = none := split.1 marking member id mark
          rw [has_eq] at mark
          obtain ⟨spent, found⟩ := Option.isSome_iff_exists.mp mark
          rw [has_eq, has_eq, uncopied] at known
          obtain ⟨vout, fresh⟩ := Option.isSome_iff_exists.mp known
          have cached := (tracked marking (mem_cons_of_mem _ member)).spent id spent found
          obtain ⟨utxo, remembered⟩ := Option.isSome_iff_exists.mp cached
          have loaded := tracks.sound.agrees.utxo id utxo remembered
          rw [own.created id vout fresh] at loaded
          cases loaded
        cases copied : layer.utxoMap.has id with
        | true =>
          rw [copied] at unmarked
          rw [has_eq] at copied
          obtain ⟨utxo, held⟩ := Option.isSome_iff_exists.mp copied
          have cached : ctx.cache.utxoMap.has id = true := by
            rw [has_eq, own.held id utxo held]
            rfl
          rw [unmarked rfl, cached]
          simp
        | false =>
          cases created : layer.createdUTXOMap.has id with
          | true =>
            rw [copied, created] at unmarked
            rw [unmarked rfl]
            simp
          | false =>
            rw [rest]
            simp
  exact layers _ tracks.layers tracks.ordered

variable {after : Context Acc Ev}

theorem TracksUTXOs.step (tracks : ctx.TracksUTXOs) (sound : after.Sound)
    (loader : after.loader = ctx.loader) (parents : after.parents = ctx.parents)
    (reads : ∀ id utxo, ctx.cache.utxoMap.get id = some utxo →
      after.cache.utxoMap.get id = some utxo)
    (top : after.top.Tracks ctx.loader after.cache.utxoMap)
    (respects : ∀ lower ∈ ctx.parents, after.top.Respects utxoSlot lower) : after.TracksUTXOs where
  sound := sound
  layers := by
    intro layer member
    rw [parents] at member
    rw [loader]
    rcases mem_cons.mp member with head | tail
    · exact head ▸ top
    · exact (tracks.layers layer (mem_cons_of_mem _ tail)).mono reads
  ordered := by
    rw [parents]
    exact pairwise_cons.mpr ⟨respects, (pairwise_cons.mp tracks.ordered).2⟩

structure SameUTXOs (before after : Context Acc Ev) : Prop where
  sound : after.Sound
  loader : after.loader = before.loader
  parents : after.parents = before.parents
  top : after.top.utxoPart = before.top.utxoPart
  cache : after.cache.utxoMap = before.cache.utxoMap

theorem TracksUTXOs.frame (tracks : ctx.TracksUTXOs)
    (same : ctx.SameUTXOs after) : after.TracksUTXOs := by
  obtain ⟨sound, loader, parents, top, cache⟩ := same
  have held : after.top.utxoMap = ctx.top.utxoMap := congrArg (·.1) top
  have created : after.top.createdUTXOMap = ctx.top.createdUTXOMap := congrArg (·.2.1) top
  have spent : after.top.deletedUTXOMap = ctx.top.deletedUTXOMap := congrArg (·.2.2) top
  have old := tracks.layers ctx.top mem_cons_self
  refine tracks.step sound loader parents (fun id utxo found => cache ▸ found) ?_ ?_
  · refine ⟨?_, ?_, ?_⟩
    · rw [held, cache]
      exact old.held
    · rw [spent, cache]
      exact old.spent
    · rw [created]
      exact old.created
  · intro lower member id marked
    change after.top.utxoMap.get id = none
    rw [held]
    exact (pairwise_cons.mp tracks.ordered).1 lower member id marked

end Context

namespace ContextCache

variable {Key Value : Type} [Ord Key] [Std.TransOrd Key] [Std.LawfulEqOrd Key]
  {map : SortedMap Key Value}

theorem recalled_keeps {other : Key} {held : Value}
    (found : map.get other = some held) (key : Key) (loaded : Except Err Value) :
    (recalled map key loaded).2.get other = some held := by
  unfold recalled
  split
  · exact found
  · rename_i absent
    split
    · exact found
    · have different : key ≠ other := by
        intro same
        rw [same, found] at absent
        cases absent
      exact (get_put_of_ne _ _ different).trans found

theorem recalled_found {key : Key} {loaded : Except Err Value}
    {value : Value} (found : (recalled map key loaded).1 = .ok value) :
    (recalled map key loaded).2.get key = some value := by
  unfold recalled at found ⊢
  split at found
  · rename_i held
    cases found
    exact held
  · split at found
    · cases found
    · cases found
      exact get_put_self _ _ _

end ContextCache

namespace Context

variable {ctx : Context Acc Ev}

theorem utxo_cache (id : UInt64) (ctx : Context Acc Ev) :
    (ctx.utxo id).2.cache.utxoMap = ctx.cache.utxoMap ∨
      (ctx.utxo id).2.cache.utxoMap =
        (ContextCache.recalled ctx.cache.utxoMap id (ctx.loader.utxo id)).2 := by
  change (ContextData.read _ _ ctx.top ctx.parents ctx.cache).2.2.2.utxoMap = _ ∨
    (ContextData.read _ _ ctx.top ctx.parents ctx.cache).2.2.2.utxoMap = _
  rw [(read_spec ..).2]
  unfold cacheAfter
  split
  · exact .inr rfl
  · exact .inl rfl

theorem utxo_reads (id : UInt64) (ctx : Context Acc Ev) (other : UInt64) (utxo : UTXO)
    (read : ctx.cache.utxoMap.get other = some utxo) :
    (ctx.utxo id).2.cache.utxoMap.get other = some utxo := by
  rcases utxo_cache id ctx with same | recalled
  · rw [same]
    exact read
  · rw [recalled]
    exact ContextCache.recalled_keeps read id _

section

variable (tracks : ctx.TracksUTXOs)

include tracks

variable (id : UInt64)

theorem TracksUTXOs.utxo_read (utxo : UTXO)
    (found : (ctx.utxo id).1 = .ok utxo) : (ctx.utxo id).2.cache.utxoMap.get id = some utxo := by
  rw [tracks.sound.utxo_fst, answer] at found
  cases answered : lookup ((ctx.top :: ctx.parents).map (utxoSlot id).layer) with
  | deleted =>
    rw [answered] at found
    cases found
  | value held =>
    rw [answered] at found
    cases found
    obtain ⟨_, member, stored⟩ := lookup_value_held answered
    obtain ⟨layer, layered, rfl⟩ := mem_map.mp member
    exact utxo_reads id ctx id utxo ((tracks.layers layer layered).held id utxo stored)
  | silent =>
    rw [answered] at found
    change (ContextData.read _ _ ctx.top ctx.parents ctx.cache).2.2.2.utxoMap.get id = _
    rw [(read_spec ..).2, answered]
    refine ContextCache.recalled_found ?_
    exact ((ContextCache.utxo_spec tracks.sound.agrees id).1.trans found)

theorem TracksUTXOs.utxo : (ctx.utxo id).2.TracksUTXOs := by
  have steps := utxo_steps tracks.sound id
  have old := (tracks.layers ctx.top mem_cons_self).mono (utxo_reads id ctx)
  have created : (ctx.utxo id).2.top.createdUTXOMap = ctx.top.createdUTXOMap :=
    read_top_frame (·.createdUTXOMap) _ _ (fun _ _ => rfl) ctx
  have spent : (ctx.utxo id).2.top.deletedUTXOMap = ctx.top.deletedUTXOMap :=
    read_top_frame (·.deletedUTXOMap) _ _ (fun _ _ => rfl) ctx
  have copied : ∀ other utxo, (ctx.utxo id).2.top.utxoMap.get other = some utxo →
      ctx.top.utxoMap.get other = some utxo ∨ id = other ∧ (ctx.utxo id).1 = .ok utxo := by
    intro other utxo held
    rcases read_copy (·.utxoMap) (utxoSlot id) id (fun _ _ => rfl) _ ctx other utxo held
      with own | ⟨same, found⟩
    · exact .inl own
    · exact .inr ⟨same, toOption_some found⟩
  refine tracks.step steps.sound steps.loader steps.parents (utxo_reads id ctx) ?_ ?_
  · refine ⟨fun other utxo held => ?_, fun other utxo marked => ?_, ?_⟩
    · rcases copied other utxo held with own | ⟨same, found⟩
      · exact old.held other utxo own
      · exact same ▸ tracks.utxo_read id utxo found
    · rw [spent] at marked
      exact old.spent other utxo marked
    · rw [created]
      exact old.created
  · intro lower member other marked
    change (ctx.utxo id).2.top.utxoMap.get other = none
    cases held : (ctx.utxo id).2.top.utxoMap.get other with
    | none => rfl
    | some utxo =>
      rcases copied other utxo held with own | ⟨same, result⟩
      · have uncopied : ctx.top.utxoMap.get other = none :=
          (pairwise_cons.mp tracks.ordered).1 lower member other marked
        rw [uncopied] at own
        cases own
      · -- a mark below makes the read fail
        have marks : ctx.marks id = true :=
          any_eq_true.mpr ⟨lower, mem_cons_of_mem _ member, same ▸ marked⟩
        rw [tracks.utxo_eq, marks] at result
        cases result

theorem TracksUTXOs.touch : ctx.touch.TracksUTXOs :=
  ⟨tracks.sound.touch, tracks.layers, tracks.ordered⟩

theorem TracksUTXOs.createUTXO (vout : TxOut) : (ctx.createUTXO id vout).2.TracksUTXOs := by
  have read := tracks.touch.utxo id
  have steps := createUTXO_steps tracks.sound id vout
  rcases createUTXO_outcome id vout ctx with ⟨err, _, failed⟩ | ⟨absent, created⟩
  · rw [failed]
    exact read
  · have own := read.layers _ mem_cons_self
    have fresh : ctx.loader.utxo id = .error .notExistUTXO := by
      rw [tracks.touch.utxo_eq] at absent
      split at absent
      · cases absent
      · exact absent
    have loader : (ctx.touch.utxo id).2.loader = ctx.loader := (utxo_steps tracks.touch.sound id).loader
    have respects := (pairwise_cons.mp read.ordered).1
    rw [created] at steps ⊢
    refine read.step steps.sound rfl rfl (fun _ _ found => found) ?_ respects
    refine { own with created := forall_get_put own.created ?_ }
    rw [loader]
    exact fresh

theorem TracksUTXOs.deleteUTXO (spent : UTXO) : (ctx.deleteUTXO spent).2.TracksUTXOs := by
  have read := tracks.touch.utxo spent.id
  have steps := deleteUTXO_steps tracks.sound spent
  rcases deleteUTXO_outcome spent ctx with ⟨err, _, failed⟩ | ⟨utxo, loaded, deleted⟩
  · rw [failed]
    exact read
  · have own := read.layers _ mem_cons_self
    have remembered := tracks.touch.utxo_read spent.id utxo loaded
    have respects := (pairwise_cons.mp read.ordered).1
    rw [deleted] at steps ⊢
    refine read.step steps.sound rfl rfl (fun _ _ found => found) ?_ respects
    refine { own with spent := forall_get_put own.spent ?_ }
    rw [remembered]
    rfl

theorem TracksUTXOs.snapshot : ctx.snapshot.2.TracksUTXOs where
  sound := tracks.sound.snapshot
  layers := by
    intro layer member
    rcases mem_cons.mp member with head | tail
    · rw [head]
      constructor <;> simp [Context.snapshot, ContextData.new]
    rcases mem_cons.mp tail with lowered | deeper
    · rw [lowered]
      have own := tracks.layers ctx.top mem_cons_self
      exact { own with }
    · exact tracks.layers layer (mem_cons_of_mem _ deeper)
  ordered := by
    refine pairwise_cons.mpr ⟨fun lower _ id _ => get_empty id, ?_⟩
    exact ContextData.pairwise_withTop ContextData.utxoSlot_merges tracks.ordered false

end

theorem tracksUTXOs_restack {top : ContextData Acc Ev} {parents : List (ContextData Acc Ev)}
    (sound : ({ ctx.touch with top := { top with isTop := true }, parents := parents } :
      Context Acc Ev).Sound)
    (layers : ∀ layer ∈ top :: parents, layer.Tracks ctx.loader ctx.cache.utxoMap)
    (ordered : (top :: parents).Pairwise (ContextData.Respects utxoSlot)) :
    ({ ctx.touch with top := { top with isTop := true }, parents := parents } :
      Context Acc Ev).TracksUTXOs where
  sound := sound
  layers := by
    intro layer member
    rcases mem_cons.mp member with head | tail
    · rw [head]
      have own := layers top mem_cons_self
      exact { own with }
    · exact layers layer (mem_cons_of_mem _ tail)
  ordered := pairwise_withTop utxoSlot_merges ordered true

theorem TracksUTXOs.commit (tracks : ctx.TracksUTXOs) (sn : Nat) : (ctx.commit sn).TracksUTXOs :=
  tracksUTXOs_restack (tracks.sound.commit sn)
    (commitLoop_all (fun _ _ => ContextData.Tracks.mergeInto) sn _ _ tracks.layers)
    (commitLoop_respects utxoSlot_merges sn _ _ tracks.ordered)

theorem TracksUTXOs.revert (tracks : ctx.TracksUTXOs) (sn : Nat) : (ctx.revert sn).TracksUTXOs :=
  tracksUTXOs_restack (tracks.sound.revert sn) (revertLoop_all sn _ _ tracks.layers)
    (revertLoop_respects sn _ _ tracks.ordered)

/-! ### Operations on other data -/

theorem account_utxoPart (addr : Address) (ctx : Context Acc Ev) :
    (ctx.account addr).2.top.utxoPart = ctx.top.utxoPart :=
  read_top_frame utxoPart _ _ (fun _ _ => rfl) ctx.touch

variable {after : Context Acc Ev}

theorem Steps.sameUTXOs (steps : ctx.Steps after) (top : after.top.utxoPart = ctx.top.utxoPart)
    (cache : after.cache.utxoMap = ctx.cache.utxoMap) : ctx.SameUTXOs after :=
  { steps with top, cache }

theorem Reslots.sameUTXOs (reslots : ctx.Reslots after)
    (sound : ctx.Sound) : ctx.SameUTXOs after := by
  obtain ⟨cache, slots, agrees, utxos, rfl⟩ := reslots
  exact ⟨sound.reslot _ _ agrees, rfl, rfl, rfl, utxos⟩

theorem insertAccount_sameUTXOs [Account Acc] [Base58] (sound : ctx.Sound) (tolerated : Err → Bool)
    (acc : Acc) : ctx.SameUTXOs (ctx.insertAccount tolerated acc).2 := by
  refine (insertAccount_steps sound tolerated acc).sameUTXOs ?_
    (insertAccount_utxoMap tolerated acc ctx)
  rcases insertAccount_outcome tolerated acc ctx with ⟨err, failed⟩ | ⟨_, inserted⟩
  · rw [failed]
    rfl
  · rw [inserted]
    rfl

theorem deleteAccount_sameUTXOs [Account Acc] (sound : ctx.Sound) (acc : Acc) :
    ctx.SameUTXOs (ctx.deleteAccount acc).2 := by
  refine (deleteAccount_steps sound acc).sameUTXOs ?_ (deleteAccount_utxoMap acc ctx)
  have read := account_utxoPart (Account.address acc) ctx
  rcases deleteAccount_outcome acc ctx with ⟨err, _, failed⟩ | ⟨found, _, deleted⟩
  · rw [failed]
    exact read
  · rw [deleted]
    exact read

theorem updateAccount_sameUTXOs (sound : ctx.Sound) (addr : Address) (change : Acc → Acc) :
    ctx.SameUTXOs (ctx.updateAccount addr change).2 := by
  refine (updateAccount_steps sound addr change).sameUTXOs ?_ (updateAccount_utxoMap addr change ctx)
  have read := account_utxoPart addr ctx
  rcases updateAccount_outcome addr change ctx with ⟨err, _, failed⟩ | ⟨found, _, updated⟩
  · rw [failed]
    exact read
  · rw [updated]
    exact read

end Context

def Op.movesUTXOs : Op Acc Ev → Bool
  | utxo _ | createUTXO _ _ | deleteUTXO _ | snapshot | revert _ | commit _ => true
  | _ => false

section Runs

variable [Account Acc] [Event Ev] [Base58] {ctx : Context Acc Ev}

theorem Op.apply_sameUTXOs (sound : ctx.Sound) {op : Op Acc Ev} (other : op.movesUTXOs = false) :
    ctx.SameUTXOs (op.apply ctx) := by
  cases op with
  | createAccount acc => exact insertAccount_sameUTXOs sound _ acc
  | createAccountIgnoreDelete acc => exact insertAccount_sameUTXOs sound _ acc
  | deleteAccount acc => exact deleteAccount_sameUTXOs sound acc
  | updateAccount addr change => exact updateAccount_sameUTXOs sound addr change
  | account addr =>
    exact (account_steps sound addr).sameUTXOs (account_utxoPart addr ctx)
      (account_utxoMap addr ctx)
  | addressByName name =>
    exact (addressByName_steps sound name).sameUTXOs
      (read_top_frame utxoPart _ _ (fun _ _ => rfl) ctx)
      (read_cache_frame (·.utxoMap) _ _ (fun _ => rfl) ctx)
  | accountData addr pid name =>
    exact (accountData_steps sound addr pid name).sameUTXOs
      (read_top_frame utxoPart _ _ (fun _ _ => rfl) ctx)
      (read_cache_frame (·.utxoMap) _ _ (fun _ => rfl) ctx)
  | processData pid name =>
    exact (processData_steps sound pid name).sameUTXOs
      (read_top_frame utxoPart _ _ (fun _ _ => rfl) ctx)
      (read_cache_frame (·.utxoMap) _ _ (fun _ => rfl) ctx)
  | setAccountData addr pid name value =>
    refine (setAccountData_steps sound addr pid name value).sameUTXOs ?_ rfl
    rw [Context.setAccountData, ContextData.setAccountData]
    split <;> rfl
  | setProcessData pid name value =>
    refine (setProcessData_steps sound pid name value).sameUTXOs ?_ rfl
    rw [Context.setProcessData, ContextData.setProcessData]
    split <;> rfl
  | emitEvent event => exact (emitEvent_steps sound event).sameUTXOs rfl rfl
  | useTimeSlot slot key => exact (useTimeSlot_outcome sound slot key).sameUTXOs sound
  | hasTimeSlot slot key => exact (hasTimeSlot_outcome sound slot key).sameUTXOs sound
  | _ => cases other

theorem Op.apply_tracksUTXOs (tracks : ctx.TracksUTXOs) (op : Op Acc Ev) :
    (op.apply ctx).TracksUTXOs := by
  cases moves : op.movesUTXOs with
  | false => exact tracks.frame (Op.apply_sameUTXOs tracks.sound moves)
  | true =>
    cases op with
    | utxo id => exact tracks.utxo id
    | createUTXO id vout => exact tracks.createUTXO id vout
    | deleteUTXO spent => exact tracks.deleteUTXO spent
    | snapshot => exact tracks.snapshot
    | commit sn => exact tracks.commit sn
    | revert sn => exact tracks.revert sn
    | _ => cases moves

theorem Op.run_tracksUTXOs (tracks : ctx.TracksUTXOs) (ops : List (Op Acc Ev)) :
    (Op.run ops ctx).TracksUTXOs := by
  induction ops generalizing ctx with
  | nil => exact tracks
  | cons op rest ih => exact ih (op.apply_tracksUTXOs tracks)

end Runs

namespace Database

variable [Account Acc] [AccountCodec Acc] [TxOutCodec]

theorem written_spent {ctd : ContextData Acc Ev} {id : UInt64}
    (marked : ctd.deletedUTXOMap.has id = true) (db : Database) :
    (written ctd db).get (toUTXOKey id) = none := by
  have processes : ∀ key, toProcessDataKey key ≠ toUTXOKey id := fun _ => tagged_ne rfl (by decide)
  have listed : toUTXOKey id ∈ ctd.deletedUTXOMap.eachAll.map fun entry => toUTXOKey entry.1 := by
    rw [has_eq] at marked
    have visited := (has_iff_key_visited _ _).mp marked
    obtain ⟨entry, member, same⟩ := mem_map.mp visited
    exact mem_map.mpr ⟨entry, member, congrArg toUTXOKey same⟩
  have erased : ∀ db : Database, (ctd.deletedUTXOMap.eachAll.foldl
      (fun db entry => db.delete (toUTXOKey entry.1)) db).get (toUTXOKey id) = none := by
    intro db
    rw [← foldl_map, get_foldl_delete, if_pos listed]
  unfold written writeProcessState writeUTXOs
  rw [get_foldl_frame _ _ fun map entry => get_delete_of_ne map (processes _),
    get_foldl_frame _ _ fun map entry => get_put_of_ne map _ (processes _)]
  exact erased _

end Database

namespace ContextData

theorem commitLoop_marks (id : UInt64) (sn : Nat) (ctd : ContextData Acc Ev)
    (parents : List (ContextData Acc Ev)) :
    ((commitLoop sn ctd parents).1 :: (commitLoop sn ctd parents).2).any
        (·.deletedUTXOMap.has id) = (ctd :: parents).any (·.deletedUTXOMap.has id) := by
  refine commitLoop_keeps (fun stack => stack.any (·.deletedUTXOMap.has id) = _)
    (fun child parent rest marked => ?_) sn rfl
  have merged : (mergeInto child parent).deletedUTXOMap.has id =
      (child.deletedUTXOMap.has id || parent.deletedUTXOMap.has id) := by
    change (putAll child.deletedUTXOMap parent.deletedUTXOMap).has id = _
    rw [has_eq, has_eq, has_eq, get_putAll]
    cases child.deletedUTXOMap.get id <;> rfl
  rw [← marked, any_cons, any_cons, any_cons, merged, Bool.or_assoc]

end ContextData

namespace Context

variable {ctx after : Context Acc Ev}

theorem marks_top_only {id : UInt64} (marked : ctx.marks id = true)
    (parents : after.parents = ctx.parents)
    (top : ctx.top.deletedUTXOMap.has id = true → after.top.deletedUTXOMap.has id = true) :
    after.marks id = true := by
  rw [marks, any_cons, Bool.or_eq_true] at marked ⊢
  rw [parents]
  exact marked.imp_left top

/-- Only `Revert` takes a mark back. -/
theorem marks_utxo {id : UInt64} (sound : ctx.Sound) (marked : ctx.marks id = true)
    (other : UInt64) : (ctx.utxo other).2.marks id = true := by
  refine marks_top_only marked (utxo_steps sound other).parents fun own => ?_
  have same : (ctx.utxo other).2.top.deletedUTXOMap = ctx.top.deletedUTXOMap :=
    read_top_frame (·.deletedUTXOMap) _ _ (fun _ _ => rfl) ctx
  rw [same]
  exact own

end Context

variable [Account Acc] [Event Ev] [Base58] {ctx : Context Acc Ev}

theorem Op.apply_marks {id : UInt64} (sound : ctx.Sound) (marked : ctx.marks id = true)
    {op : Op Acc Ev} (kept : ∀ sn, op ≠ .revert sn) : (op.apply ctx).marks id = true := by
  cases moves : op.movesUTXOs with
  | false =>
    have same := Op.apply_sameUTXOs sound moves
    have spent : (op.apply ctx).top.deletedUTXOMap = ctx.top.deletedUTXOMap :=
      congrArg (·.2.2) same.top
    refine marks_top_only marked same.parents fun own => ?_
    rw [spent]
    exact own
  | true =>
    cases op with
    | utxo other => exact marks_utxo sound marked other
    | createUTXO other vout =>
      have read := marks_utxo sound.touch marked other
      rcases createUTXO_outcome other vout ctx with ⟨err, _, failed⟩ | ⟨_, created⟩
      · rw [Op.apply, failed]
        exact read
      · rw [Op.apply, created]
        exact read
    | deleteUTXO spent =>
      have read := marks_utxo sound.touch marked spent.id
      rcases deleteUTXO_outcome spent ctx with ⟨err, _, failed⟩ | ⟨found, _, deleted⟩
      · rw [Op.apply, failed]
        exact read
      · rw [Op.apply, deleted]
        refine marks_top_only read rfl fun own => ?_
        rw [has_eq] at own ⊢
        rw [get_put]
        split
        · rfl
        · exact own
    | snapshot =>
      rw [Op.apply, marks, any_cons, Bool.or_eq_true]
      exact .inr marked
    | commit sn =>
      rw [Op.apply]
      exact (commitLoop_marks id sn ctx.top ctx.parents).trans marked
    | revert sn => exact absurd rfl (kept sn)
    | _ => cases moves

theorem Op.run_marks {id : UInt64} (sound : ctx.Sound) (marked : ctx.marks id = true)
    {ops : List (Op Acc Ev)} (kept : ∀ sn, Op.revert sn ∉ ops) :
    (Op.run ops ctx).marks id = true := by
  induction ops generalizing ctx with
  | nil => exact marked
  | cons op rest ih =>
    refine ih (op.apply_keeps sound).sound (Op.apply_marks sound marked ?_) fun sn listed => ?_
    · intro sn same
      exact kept sn (same ▸ mem_cons_self)
    · exact kept sn (mem_cons_of_mem _ listed)

end Fleta
