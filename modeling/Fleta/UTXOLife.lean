import Fleta.UTXOTracking

/-!
# The life of a UTXO in a context

A UTXO should be found by `HasUTXO` and by `UTXO` alike, from its creation until it is
spent. `UTXO` never finds an output created in the context, and `HasUTXO` misses an output
of the loader that was not read before. So only the UTXOs that were read from the loader
live as they should.
-/

namespace Fleta

variable {Acc Ev : Type}

namespace Context

/-- The UTXO is gone: in the context, and in every database to which the only layer of the
context is applied. -/
structure AbsentUTXO [Account Acc] [AccountCodec Acc] [TxOutCodec] (id : UInt64)
    (ctx : Context Acc Ev) : Prop where
  hasUTXO : ctx.hasUTXO id = .ok false
  utxo : ∃ err, (ctx.utxo id).1 = .error err
  stored : ctx.parents = [] → ∀ db db', Database.applyContextData ctx.top db = .ok db' →
    db'.hasUTXO id = .ok false ∧ db'.utxo id = .error .notExistUTXO

/-- What the operations owe the UTXO `id` from the state of the context on. A mark of the
deletion stays until it is reverted, and the UTXO is absent while it stays. -/
structure UTXOLife [Account Acc] [AccountCodec Acc] [TxOutCodec] [Event Ev] [Base58] (id : UInt64)
    (ctx : Context Acc Ev) : Prop where
  present : ctx.hasUTXO id = .ok true ↔ ∃ utxo, (ctx.utxo id).1 = .ok utxo
  afterReads : ∀ ids : List UInt64,
    let after := Op.run (ids.map .utxo) ctx
    after.hasUTXO id = ctx.hasUTXO id ∧ (after.utxo id).1 = (ctx.utxo id).1
  created : ∀ vout, (ctx.createUTXO id vout).1 = .ok () →
    let after := (ctx.createUTXO id vout).2
    (∃ utxo, (after.utxo id).1 = .ok utxo ∧ utxo.toTxOut = vout) ∧
      ∀ again, (after.createUTXO id again).1 ≠ .ok ()
  spent : ∀ spent : UTXO, spent.id = id → (ctx.deleteUTXO spent).1 = .ok () →
    ∀ later : List (Op Acc Ev),
      let after := Op.run later (ctx.deleteUTXO spent).2
      ((∀ sn, Op.revert sn ∉ later) → after.marks id = true) ∧
        (after.marks id = true → after.AbsentUTXO id)

variable {ctx : Context Acc Ev}

theorem TracksUTXOs.absent [Account Acc] [AccountCodec Acc] [TxOutCodec] (tracks : ctx.TracksUTXOs)
    {id : UInt64} (marked : ctx.marks id = true) : ctx.AbsentUTXO id where
  hasUTXO := by
    rw [tracks.hasUTXO_eq, marked]
    rfl
  utxo := ⟨.usedUTXO, by rw [tracks.utxo_eq, if_pos marked]⟩
  stored := by
    intro single db db' applied
    rw [marks, single, List.any_cons, List.any_nil, Bool.or_false] at marked
    have erased := Database.written_spent marked db
    unfold Database.applyContextData at applied
    split at applied
    · cases applied
    · cases applied
      rw [Database.hasUTXO, Database.utxo, erased]
      exact ⟨rfl, rfl⟩

/-- The UTXO was read from the loader before, or the loader can neither give it nor say
that it does not exist. -/
def Settles (id : UInt64) (ctx : Context Acc Ev) : Prop :=
  ctx.cache.utxoMap.has id = true ∨ ∃ err, err ≠ .notExistUTXO ∧ ctx.loader.utxo id = .error err

namespace TracksUTXOs

variable (tracks : ctx.TracksUTXOs) {id : UInt64}
include tracks

theorem loaded (cached : ctx.cache.utxoMap.has id = true) :
    ∃ utxo, ctx.loader.utxo id = .ok utxo := by
  rw [SortedMap.has_eq] at cached
  obtain ⟨utxo, remembered⟩ := Option.isSome_iff_exists.mp cached
  exact ⟨utxo, tracks.sound.agrees.utxo id utxo remembered⟩

theorem cached_of_marks (marked : ctx.marks id = true) : ctx.cache.utxoMap.has id = true := by
  obtain ⟨layer, member, mark⟩ := List.any_eq_true.mp marked
  rw [SortedMap.has_eq] at mark ⊢
  obtain ⟨spent, found⟩ := Option.isSome_iff_exists.mp mark
  exact (tracks.layers layer member).spent id spent found

theorem new_of_creates (created : ctx.creates id = true) :
    ctx.loader.utxo id = .error .notExistUTXO := by
  obtain ⟨layer, member, made⟩ := List.any_eq_true.mp created
  rw [SortedMap.has_eq] at made
  obtain ⟨vout, found⟩ := Option.isSome_iff_exists.mp made
  exact (tracks.layers layer member).created id vout found

theorem settles_known (settles : ctx.Settles id) : (ctx.utxo id).1 ≠ .error .notExistUTXO := by
  rw [tracks.utxo_eq]
  split
  · intro same
    cases same
  · rcases settles with cached | ⟨err, other, failed⟩
    · obtain ⟨utxo, loaded⟩ := tracks.loaded cached
      rw [loaded]
      intro same
      cases same
    · rw [failed]
      intro same
      exact other (Except.error.inj same)

theorem settles_hasUTXO (settles : ctx.Settles id) : ctx.hasUTXO id = .ok (ctx.utxo id).1.isOk := by
  have fresh : ctx.creates id = false := by
    refine Bool.eq_false_iff.mpr fun created => ?_
    have absent := tracks.new_of_creates created
    rcases settles with cached | ⟨err, other, failed⟩
    · obtain ⟨utxo, loaded⟩ := tracks.loaded cached
      rw [absent] at loaded
      cases loaded
    · rw [absent] at failed
      exact other (Except.error.inj failed).symm
  rw [tracks.hasUTXO_eq, tracks.utxo_eq, fresh]
  cases marked : ctx.marks id with
  | true => rfl
  | false =>
    cases cached : ctx.cache.utxoMap.has id with
    | true =>
      obtain ⟨utxo, loaded⟩ := tracks.loaded cached
      rw [loaded]
      rfl
    | false =>
      rcases settles with held | ⟨err, other, failed⟩
      · rw [cached] at held
        cases held
      · rw [failed]
        rfl

end TracksUTXOs

/-- A UTXO that the loader does not know can be created, and is then not found. -/
theorem TracksUTXOs.creation_lost (tracks : ctx.TracksUTXOs) {id : UInt64}
    (absent : ctx.loader.utxo id = .error .notExistUTXO) (vout : TxOut) :
    (ctx.createUTXO id vout).1 = .ok () ∧
      ∃ err, ((ctx.createUTXO id vout).2.utxo id).1 = .error err := by
  have unmarked : ctx.marks id = false := by
    refine Bool.eq_false_iff.mpr fun marked => ?_
    obtain ⟨utxo, loaded⟩ := tracks.loaded (tracks.cached_of_marks marked)
    rw [absent] at loaded
    cases loaded
  have read : (ctx.touch.utxo id).1 = .error .notExistUTXO := by
    rw [tracks.touch.utxo_eq]
    exact (if_neg (Bool.eq_false_iff.mp unmarked)).trans absent
  have loader := (createUTXO_steps tracks.sound id vout).loader
  have after := (tracks.createUTXO id vout).utxo_eq id
  rw [loader, absent] at after
  constructor
  · rcases createUTXO_outcome id vout ctx with ⟨err, known, _⟩ | ⟨_, created⟩
    · exact absurd read known
    · rw [created]
  · rw [after]
    split
    · exact ⟨.usedUTXO, rfl⟩
    · exact ⟨.notExistUTXO, rfl⟩

variable [Account Acc] [AccountCodec Acc] [TxOutCodec] [Event Ev] [Base58]

theorem TracksUTXOs.spent_absent (tracks : ctx.TracksUTXOs) (spent : UTXO)
    (deleted : (ctx.deleteUTXO spent).1 = .ok ()) (later : List (Op Acc Ev)) :
    let after := Op.run later (ctx.deleteUTXO spent).2
    ((∀ sn, Op.revert sn ∉ later) → after.marks spent.id = true) ∧
      (after.marks spent.id = true → after.AbsentUTXO spent.id) := by
  intro after
  have kept := tracks.deleteUTXO spent
  refine ⟨fun unreverted => Op.run_marks kept.sound ?_ unreverted,
    (Op.run_tracksUTXOs kept later).absent⟩
  rcases deleteUTXO_outcome spent ctx with ⟨err, _, failed⟩ | ⟨found, _, done⟩
  · rw [failed] at deleted
    cases deleted
  · rw [done, marks, List.any_cons]
    simp

omit [AccountCodec Acc] [TxOutCodec] in
theorem run_reads (sound : ctx.Sound) (id : UInt64) (ids : List UInt64) :
    let after := Op.run (ids.map .utxo) ctx
    after.loader = ctx.loader ∧ after.marks id = ctx.marks id ∧
      (ctx.cache.utxoMap.has id = true → after.cache.utxoMap.has id = true) := by
  induction ids generalizing ctx with
  | nil => exact ⟨rfl, rfl, fun cached => cached⟩
  | cons read rest ih =>
    have steps := utxo_steps sound read
    obtain ⟨loader, marked, kept⟩ := ih steps.sound
    have spent : (ctx.utxo read).2.top.deletedUTXOMap = ctx.top.deletedUTXOMap :=
      read_top_frame (·.deletedUTXOMap) _ _ (fun _ _ => rfl) ctx
    refine ⟨loader.trans steps.loader, marked.trans ?_, fun cached => kept ?_⟩
    · rw [marks, marks, List.any_cons, List.any_cons, spent, steps.parents]
    · rw [SortedMap.has_eq] at cached ⊢
      obtain ⟨utxo, remembered⟩ := Option.isSome_iff_exists.mp cached
      rw [utxo_reads read ctx id utxo remembered]
      rfl

theorem TracksUTXOs.life_of_settles (tracks : ctx.TracksUTXOs) {id : UInt64}
    (settles : ctx.Settles id) : ctx.UTXOLife id where
  present := by
    rw [tracks.settles_hasUTXO settles]
    cases (ctx.utxo id).1 <;> simp [Except.isOk, Except.toBool]
  afterReads := by
    intro ids after
    obtain ⟨loader, marked, kept⟩ := run_reads tracks.sound id ids
    have tracked : after.TracksUTXOs := Op.run_tracksUTXOs tracks (ids.map .utxo)
    have settled : after.Settles id := by
      rcases settles with cached | failed
      · exact .inl (kept cached)
      · exact .inr (loader.symm ▸ failed)
    have same : (after.utxo id).1 = (ctx.utxo id).1 := by
      rw [tracked.utxo_eq, tracks.utxo_eq, marked, loader]
    exact ⟨by rw [tracked.settles_hasUTXO settled, tracks.settles_hasUTXO settles, same], same⟩
  created := by
    intro vout done
    rcases createUTXO_outcome id vout ctx with ⟨err, _, failed⟩ | ⟨absent, _⟩
    · rw [failed] at done
      cases done
    · exact absurd absent (tracks.touch.settles_known settles)
  spent := by
    intro spent own deleted later
    rw [← own]
    exact tracks.spent_absent spent deleted later

theorem TracksUTXOs.settles_of_life (tracks : ctx.TracksUTXOs) {id : UInt64}
    (life : ctx.UTXOLife id) : ctx.Settles id := by
  cases loaded : ctx.loader.utxo id with
  | ok utxo =>
    refine .inl (Bool.not_eq_false _ ▸ fun uncached => ?_)
    have unmarked : ctx.marks id = false := by
      refine Bool.eq_false_iff.mpr fun marked => ?_
      rw [tracks.cached_of_marks marked] at uncached
      cases uncached
    have unmade : ctx.creates id = false := by
      refine Bool.eq_false_iff.mpr fun created => ?_
      rw [tracks.new_of_creates created] at loaded
      cases loaded
    have found : (ctx.utxo id).1 = .ok utxo := by
      rw [tracks.utxo_eq, unmarked]
      exact loaded
    have has := life.present.mpr ⟨utxo, found⟩
    rw [tracks.hasUTXO_eq, unmarked, unmade, uncached] at has
    cases has
  | error err =>
    by_cases absent : err = .notExistUTXO
    · rw [absent] at loaded
      obtain ⟨created, failed, lost⟩ := tracks.creation_lost loaded ⟨0, []⟩
      obtain ⟨utxo, found, _⟩ := (life.created _ created).1
      rw [lost] at found
      cases found
    · exact .inr ⟨err, absent, loaded⟩

end Context

/-- After every sequence of operations, the UTXOs that live as they should are those that
were read from the loader, and those the loader fails on. -/
theorem utxo_life_iff [Account Acc] [AccountCodec Acc] [TxOutCodec] [Event Ev] [Base58]
    (loader : Loader Acc) (ops : List (Op Acc Ev)) (id : UInt64) :
    let ctx := Op.run ops (Context.new loader)
    ctx.UTXOLife id ↔ ctx.cache.utxoMap.has id = true ∨
        ∃ err, err ≠ .notExistUTXO ∧ loader.utxo id = .error err := by
  intro ctx
  have tracks : ctx.TracksUTXOs := Op.run_tracksUTXOs (Context.TracksUTXOs.new loader) ops
  have kept : ctx.loader = loader := (Op.run_keeps (Context.Sound.new loader) ops).loader
  rw [← kept]
  exact ⟨tracks.settles_of_life, tracks.life_of_settles⟩

open Instances

/-- In a context over an empty store an output is created, and `UTXO` does not find it. -/
theorem created_utxo_not_found :
    let ctx : Context SingleAccount PlainEvent := Op.run [] (Context.new emptyLoader)
    ¬ctx.UTXOLife 1 := by
  intro ctx life
  have created : (ctx.createUTXO 1 ⟨5, []⟩).1 = .ok () := by decide +kernel
  obtain ⟨utxo, found, _⟩ := (life.created _ created).1
  have lost : ((ctx.createUTXO 1 ⟨5, []⟩).2.utxo 1).1 = .error .notExistUTXO := by decide +kernel
  rw [lost] at found
  cases found

end Fleta
