import Fleta.IdleChain

/-!
# The history a store holds

In every run the store holds the connected blocks in order, with increasing timestamps,
and its map of used time slots is exact on the slots that a later block can accept. A
restart computes the same map again from the last blocks.
-/

namespace Fleta

open List UInt32

variable {Acc Ev Tx : Type}

def maxHeight : Nat := 2 ^ 32

theorem toNat_height {n : Nat} (short : n < maxHeight) : (ofNat n).toNat = n := by
  rw [toNat_ofNat']
  exact Nat.mod_eq_of_lt short

/-- A block after the given ones can still accept transactions of the slot. -/
def Live (blocks : List (Block Tx)) (slot : UInt32) : Prop :=
  ∀ last, blocks.getLast? = some last → (toTimeSlot last.header.timestamp).toNat ≤ slot.toNat + 1

namespace Store

section Holds

variable [HashFunction] [Msgpack] [Transaction Acc Ev Tx]

/-- The store has filed the given blocks, whatever its map of time slots. -/
structure Keeps (blocks : List (Block Tx)) (st : Store Tx) : Prop where
  piled : st.blocks = blocks
  dbHeight : st.dbHeight = ofNat blocks.length
  cached : ∀ tip, st.cache = some tip →
    tip.height = ofNat blocks.length ∧ tip.heightBlock = blocks.getLast?
  increasing : blocks.Pairwise fun earlier later =>
    earlier.header.timestamp < later.header.timestamp
  encodable : ∀ b ∈ blocks, b.encodable = true
  window : ∀ b ∈ blocks, ∀ used ∈ b.timeSlots st.chainID,
    Chain.outsideWindow (toTimeSlot b.header.timestamp) used.1 = false

/-- The store stands after the given blocks, and its map is exact on the live slots. -/
structure Holds (blocks : List (Block Tx)) (st : Store Tx) : Prop extends st.Keeps blocks where
  remembered : ∀ slot key, Live blocks slot →
    (st.timeSlotMap.hasKey slot key = true ↔ ∃ b ∈ blocks, (slot, key) ∈ b.timeSlots st.chainID)

variable {blocks : List (Block Tx)} {st : Store Tx}

variable (keeps : st.Keeps blocks)

include keeps

theorem Keeps.height : st.height = ofNat blocks.length := by
  unfold Store.height
  cases cache : st.cache with
  | none => exact keeps.dbHeight
  | some tip => exact (keeps.cached tip cache).1

section

variable (short : blocks.length < maxHeight)

include short

theorem Keeps.block {i : Nat}
    (inside : i < blocks.length) : st.block (ofNat (i + 1)) = .ok blocks[i] := by
  have position : (ofNat (i + 1)).toNat = i + 1 := toNat_height (by omega)
  have positive : ¬ofNat (i + 1) < 1 := by
    rw [lt_iff_toNat_lt, position, toNat_one]
    omega
  have fromPile : st.piled (ofNat (i + 1)) = .ok blocks[i] := by
    unfold Store.piled
    rw [if_neg positive, position, keeps.piled, Nat.add_sub_cancel, getElem?_eq_getElem inside]
  generalize ofNat (i + 1) = height at position positive fromPile ⊢
  unfold Store.block Store.cachedAt
  rw [if_neg positive]
  cases cache : st.cache with
  | none => exact fromPile
  | some tip =>
    obtain ⟨tipHeight, tipBlock⟩ := keeps.cached tip cache
    by_cases top : tip.height = height
    · have last : i + 1 = blocks.length := by
        have same := congrArg toNat (tipHeight.symm.trans top)
        rw [position, toNat_height short] at same
        exact same.symm
      have final : blocks.getLast? = some blocks[i] := by
        rw [getLast?_eq_getElem?, ← last, Nat.add_sub_cancel, getElem?_eq_getElem inside]
      rw [Option.filter_some, if_pos (beq_iff_eq.mpr top), Option.bind_some, tipBlock, final]
    · rw [Option.filter_some, if_neg fun same => top (beq_iff_eq.mp same)]
      exact fromPile

variable {last : Block Tx}

theorem Keeps.lastBlock (final : blocks.getLast? = some last) :
    0 < blocks.length ∧ st.block st.height = .ok last := by
  have nonempty : 0 < blocks.length := by
    rw [length_pos_iff]
    intro empty
    simp [empty] at final
  refine ⟨nonempty, ?_⟩
  have found := keeps.block short (i := blocks.length - 1) (by omega)
  rw [getLast?_eq_getElem?, getElem?_eq_getElem (by omega)] at final
  rw [keeps.height, ← Option.some.inj final, ← found, Nat.sub_add_cancel nonempty]

theorem Keeps.lastTimestamp (final : blocks.getLast? = some last) :
    st.lastTimestamp = last.header.timestamp := by
  obtain ⟨nonempty, found⟩ := keeps.lastBlock short final
  have positive : ¬st.height = 0 := by
    intro zero
    have same := congrArg toNat (keeps.height.symm.trans zero)
    rw [toNat_height short, UInt32.toNat_zero] at same
    omega
  unfold Store.lastTimestamp Store.header
  rw [if_neg positive, found]
  rfl

end

theorem Keeps.slot_mono {i j : Nat} (inside : i < blocks.length)
    (insideLater : j < blocks.length) (ordered : i ≤ j) :
    (toTimeSlot blocks[i].header.timestamp).toNat ≤
      (toTimeSlot blocks[j].header.timestamp).toNat := by
  rcases Nat.eq_or_lt_of_le ordered with same | before
  · subst same
    exact Nat.le_refl _
  · exact toTimeSlot_mono (pairwise_iff_getElem.mp keeps.increasing i j inside insideLater before)

theorem Keeps.used_window {b : Block Tx} (member : b ∈ blocks)
    {slot : UInt32} {key : Hash256} (used : (slot, key) ∈ b.timeSlots st.chainID) :
    0 < (toTimeSlot b.header.timestamp).toNat ∧
      (toTimeSlot b.header.timestamp).toNat ≤ slot.toNat + 1 ∧
      slot.toNat ≤ (toTimeSlot b.header.timestamp).toNat :=
  outsideWindow_eq_false.mp (keeps.window b member _ used)

end Holds

section Connect

variable [Transaction Acc Ev Tx] [HashFunction] [Msgpack] [HeaderCodec] {blocks : List (Block Tx)}
  {st st' : Store Tx} {b : Block Tx}

variable (holds : st.Holds blocks)

include holds

variable (connected : Chain.Connected b st st')

include connected

theorem Holds.nextHeight : b.header.height = ofNat (blocks.length + 1) := by
  rw [(validateHeader_ok connected.valid).2.2.2.2, holds.height]
  exact (ofNat_add _ 1).symm

theorem Holds.later (short : blocks.length < maxHeight) :
    ∀ earlier ∈ blocks, earlier.header.timestamp < b.header.timestamp := by
  intro earlier member
  obtain ⟨i, inside, rfl⟩ := getElem_of_mem member
  have final : blocks.getLast? = some blocks[blocks.length - 1] := by
    rw [getLast?_eq_getElem?, getElem?_eq_getElem (by omega)]
  have lastBefore := (validateHeader_ok connected.valid).2.2.1
  rw [holds.lastTimestamp short final] at lastBefore
  rcases Nat.eq_or_lt_of_le (Nat.le_sub_one_of_lt inside) with same | before
  · simpa [same] using lastBefore
  · exact UInt64.lt_trans
      (pairwise_iff_getElem.mp holds.increasing i _ inside (by omega) before) lastBefore

theorem Holds.live_of_later (short : blocks.length < maxHeight) {slot : UInt32}
    (bound : (toTimeSlot b.header.timestamp).toNat ≤ slot.toNat + 1) : Live blocks slot := by
  intro last final
  have ordered := toTimeSlot_mono (holds.later connected short last (mem_of_getLast? final))
  omega

theorem Holds.connect (short : blocks.length + 1 < maxHeight) : st'.Holds (blocks ++ [b]) := by
  have next := holds.nextHeight connected
  have longEnough : (blocks ++ [b]).length = blocks.length + 1 := by simp
  have final : (blocks ++ [b]).getLast? = some b := by simp
  obtain ⟨db, map, stored⟩ := connected.stored
  have sameChain : st'.chainID = st.chainID := by rw [stored]
  refine ⟨⟨?_, ?_, ?_, ?_, ?_, ?_⟩, ?_⟩
  · rw [stored]
    dsimp only [appendData]
    rw [holds.piled, if_pos next]
  · rw [stored, longEnough, next]
  · intro tip cache
    rw [stored] at cache
    rw [← Option.some.inj cache, longEnough, final]
    exact ⟨next, rfl⟩
  · rw [pairwise_append]
    refine ⟨holds.increasing, pairwise_singleton _ b, fun earlier member other only => ?_⟩
    rw [mem_singleton.mp only]
    exact holds.later connected (by omega) earlier member
  · exact forall_mem_concat holds.encodable connected.encodable
  · intro other member used listed
    rw [sameChain] at listed
    rcases mem_append.mp member with before | only
    · exact holds.window other before used listed
    · rw [mem_singleton.mp only] at listed ⊢
      exact (connected.checked used listed).1
  · intro slot key live
    have bound := live b final
    have older := holds.remembered slot key (holds.live_of_later connected (by omega) bound)
    rw [connected.timeSlots, older, sameChain]
    constructor
    · rintro ⟨_, ⟨other, member, used⟩ | used⟩
      · exact ⟨other, mem_append_left _ member, used⟩
      · exact ⟨b, by simp, used⟩
    · rintro ⟨other, member, used⟩
      -- a block with transactions does not lie in slot zero, so the prune bound is exact
      have positive : 0 < (toTimeSlot b.header.timestamp).toNat := by
        rcases mem_append.mp member with before | only
        · have early := (holds.used_window before used).1
          have ordered := toTimeSlot_mono (holds.later connected (by omega) other before)
          omega
        · rw [mem_singleton.mp only] at used
          exact (outsideWindow_eq_false.mp (connected.checked _ used).1).1
      refine ⟨?_, ?_⟩
      · rw [UInt32.lt_iff_toNat_lt, UInt32.toNat_sub, UInt32.toNat_one]
        omega
      · rcases mem_append.mp member with before | only
        · exact .inl ⟨other, before, used⟩
        · rw [mem_singleton.mp only] at used
          exact .inr used

end Connect

section Restart

variable [Transaction Acc Ev Tx] [HashFunction] [Msgpack] {blocks : List (Block Tx)}
  {st : Store Tx}

/-- The backward loop enters the transactions of exactly the blocks whose slot reaches
the one before the last. -/
theorem Keeps.rebuild (keeps : st.Keeps blocks) (short : blocks.length < maxHeight)
    (lastSlot : UInt32) {h : Nat} (inside : h ≤ blocks.length) (map : TimeSlotMap) :
    ∃ rebuilt, st.rebuild lastSlot h map = .ok rebuilt ∧ ∀ slot key,
      (rebuilt.hasKey slot key = true ↔ map.hasKey slot key = true ∨
        ∃ b ∈ blocks.take h, ¬toTimeSlot b.header.timestamp < lastSlot - 1 ∧
          (slot, key) ∈ b.timeSlots st.chainID) := by
  induction h generalizing map with
  | zero => exact ⟨map, rfl, by simp⟩
  | succ h ih =>
    have found := keeps.block short (i := h) (by omega)
    have split : blocks.take (h + 1) = blocks.take h ++ [blocks[h]] :=
      (take_append_getElem (by omega)).symm
    have member : blocks[h] ∈ blocks := getElem_mem _
    rw [Store.rebuild, found]
    dsimp only
    by_cases stop : toTimeSlot blocks[h].header.timestamp < lastSlot - 1
    · rw [if_pos stop]
      refine ⟨map, rfl, fun slot key => ⟨.inl, ?_⟩⟩
      rintro (held | ⟨b, taken, reached, _⟩)
      · exact held
      · -- the blocks below the one that stops the loop lie in no later slot
        obtain ⟨i, early, rfl⟩ := getElem_of_mem taken
        rw [length_take] at early
        rw [getElem_take] at reached
        have ordered := keeps.slot_mono (i := i) (j := h) (by omega) (by omega) (by omega)
        rw [lt_iff_toNat_lt] at stop reached
        omega
    · rw [if_neg stop]
      obtain ⟨rebuilt, done, keys⟩ := ih (by omega) (rememberBlock st.chainID blocks[h] map)
      refine ⟨rebuilt, done, fun slot key => ?_⟩
      have whole := Block.timeSlots_encodable (keeps.encodable _ member) st.chainID
      rw [keys, hasKey_rememberBlock, ← whole, split]
      constructor
      · rintro ((held | ⟨_, used⟩) | ⟨b, taken, reached, used⟩)
        · exact .inl held
        · exact .inr ⟨blocks[h], mem_append_right _ (mem_singleton.mpr rfl), stop, used⟩
        · exact .inr ⟨b, mem_append_left _ taken, reached, used⟩
      · rintro (held | ⟨b, taken, reached, used⟩)
        · exact .inl (.inl held)
        rcases mem_append.mp taken with before | only
        · exact .inr ⟨b, before, reached, used⟩
        · rw [mem_singleton.mp only] at used
          obtain ⟨positive, lower, upper⟩ := keeps.used_window member used
          refine .inl (.inr ⟨?_, used⟩)
          rw [ge_iff_le, UInt32.le_iff_toNat_le, UInt32.toNat_sub, UInt32.toNat_one]
          omega

theorem Keeps.rebuilt_live (keeps : st.Keeps blocks) {last : Block Tx}
    (final : blocks.getLast? = some last) {slot : UInt32} {key : Hash256}
    (live : Live blocks slot) :
    (∃ b ∈ blocks.take blocks.length,
        ¬toTimeSlot b.header.timestamp < toTimeSlot last.header.timestamp - 1 ∧
          (slot, key) ∈ b.timeSlots st.chainID) ↔
      ∃ b ∈ blocks, (slot, key) ∈ b.timeSlots st.chainID := by
  rw [take_length]
  constructor
  · rintro ⟨b, member, _, used⟩
    exact ⟨b, member, used⟩
  · rintro ⟨b, member, used⟩
    refine ⟨b, member, ?_, used⟩
    obtain ⟨positive, _, upper⟩ := keeps.used_window member used
    have bound := live last final
    have ordered : (toTimeSlot b.header.timestamp).toNat ≤
        (toTimeSlot last.header.timestamp).toNat := by
      obtain ⟨i, inside, rfl⟩ := getElem_of_mem member
      rw [getLast?_eq_getElem?, getElem?_eq_getElem (by omega)] at final
      rw [← Option.some.inj final]
      exact keeps.slot_mono inside (by omega) (by omega)
    rw [UInt32.lt_iff_toNat_lt, UInt32.toNat_sub, UInt32.toNat_one]
    omega

end Restart

variable [Account Acc] [Event Ev] [Base58] [Transaction Acc Ev Tx] [HashFunction] [Msgpack]
  [HeaderCodec] [AccountCodec Acc] [TxOutCodec] [EventCodec Ev] {blocks : List (Block Tx)}
  {st st' : Store Tx} {genesis : ContextData Acc Ev} {genHash : Hash256}

omit [Event Ev] [Base58] [HeaderCodec] [EventCodec Ev] in
theorem storeGenesis_holds (empty : st.blocks = []) (unused : st.timeSlotMap = .empty)
    (stored : st.storeGenesis genHash genesis = .ok st') :
    st'.Holds [] ∧ st'.chainID = st.chainID := by
  unfold storeGenesis at stored
  split at stored
  · cases stored
  split at stored
  · cases stored
  cases stored
  refine ⟨⟨⟨empty, rfl, ?_, List.Pairwise.nil, by simp, by simp⟩, ?_⟩, rfl⟩
  · rintro tip ⟨rfl⟩
    exact ⟨rfl, rfl⟩
  · intro slot key _
    rw [unused]
    simp [TimeSlotMap.hasKey]

omit [Event Ev] [Base58] [EventCodec Ev] in
theorem Holds.restart (holds : st.Holds blocks) (short : blocks.length < maxHeight)
    {fn : Block Tx → Store Tx → Except Err Unit × Store Tx}
    (restarted : Chain.restart genHash genesis fn st = (.ok (), st')) :
    st'.Holds blocks ∧ st'.chainID = st.chainID := by
  unfold Chain.restart at restarted
  dsimp only at restarted
  generalize reopened : ({ st with cache := none, timeSlotMap := .empty } : Store Tx) = opened
    at restarted
  have keeps : opened.Keeps blocks := by
    subst reopened
    exact { holds with cached := by simp }
  have unused : opened.timeSlotMap = .empty := by rw [← reopened]
  have sameChain : opened.chainID = st.chainID := by rw [← reopened]
  have counted : opened.height.toNat = blocks.length := by
    rw [keeps.height, toNat_height short]
  unfold Chain.init at restarted
  cases final : blocks.getLast? with
  | none =>
    have none : blocks = [] := getLast?_eq_none_iff.mp final
    subst none
    have low : ¬opened.height > 0 := by
      rw [gt_iff_lt, lt_iff_toNat_lt, counted]
      exact Nat.lt_irrefl _
    rw [if_neg low] at restarted
    cases stored : opened.storeGenesis genHash genesis with
    | error err =>
      rw [stored] at restarted
      cases restarted
    | ok begun =>
      obtain ⟨atGenesis, begunChain⟩ := storeGenesis_holds keeps.piled unused stored
      have lowAgain : ¬begun.height > 0 := by
        rw [gt_iff_lt, lt_iff_toNat_lt, atGenesis.height]
        exact Nat.lt_irrefl _
      rw [stored] at restarted
      dsimp only [iterBlockAfterContext] at restarted
      rw [atGenesis.piled, drop_nil, replay] at restarted
      dsimp only at restarted
      rw [if_neg lowAgain] at restarted
      cases restarted
      exact ⟨atGenesis, begunChain.trans sameChain⟩
  | some last =>
    obtain ⟨nonempty, found⟩ := keeps.lastBlock short final
    have high : opened.height > 0 := by
      rw [gt_iff_lt, lt_iff_toNat_lt, counted]
      exact nonempty
    have iterated : opened.iterBlockAfterContext fn = (.ok (), st') := by
      rw [if_pos high] at restarted
      cases genesisHash : opened.hash 0 with
      | error err =>
        rw [genesisHash] at restarted
        cases restarted
      | ok h =>
        rw [genesisHash] at restarted
        by_cases same : genHash ≠ h
        · dsimp only at restarted
          rw [if_pos same] at restarted
          cases restarted
        · dsimp only at restarted
          rw [if_neg same] at restarted
          exact restarted
    obtain ⟨rebuilt, done, keys⟩ := keeps.rebuild short (toTimeSlot last.header.timestamp)
      (Nat.le_refl _) opened.timeSlotMap
    unfold iterBlockAfterContext header at iterated
    rw [keeps.piled, counted, drop_length, replay] at iterated
    dsimp only at iterated
    rw [if_pos high, found] at iterated
    dsimp only [Except.map] at iterated
    rw [counted, done] at iterated
    cases iterated
    refine ⟨⟨{ keeps with }, fun slot key live => ?_⟩, sameChain⟩
    rw [keys, unused, keeps.rebuilt_live final live]
    simp [TimeSlotMap.hasKey]

end Store

namespace Chain

variable [HashFunction] [Msgpack] [Transaction Acc Ev Tx] {chainID : UInt8}

/-- The encoding of a transaction determines its timestamp. -/
def EncodesTimestamp (Tx : Type) [Transaction Acc Ev Tx] (chainID : UInt8) : Prop :=
  ∀ (t t' : UInt16) (tx tx' : Tx),
    Msgpack.encodeUint8 chainID ++ Msgpack.encodeUint16 t ++ Transaction.marshal tx =
      Msgpack.encodeUint8 chainID ++ Msgpack.encodeUint16 t' ++ Transaction.marshal tx' →
    Transaction.timestamp tx = Transaction.timestamp tx'

theorem timeSlot_of_hash (collisionFree : Function.Injective HashFunction.hash)
    (timestamped : EncodesTimestamp Tx chainID) {b b' : Block Tx} {used used' : UInt32 × Hash256}
    (listed : used ∈ b.timeSlots chainID) (listed' : used' ∈ b'.timeSlots chainID)
    (same : used.2 = used'.2) : used = used' := by
  obtain ⟨entry, _, rfl⟩ := mem_map.mp listed
  obtain ⟨entry', _, rfl⟩ := mem_map.mp listed'
  have times := timestamped _ _ _ _ (collisionFree same)
  refine Prod.ext ?_ same
  dsimp only [timeSlotOf]
  rw [times]

def Disjoint (chainID : UInt8) (earlier later : Block Tx) : Prop :=
  ∀ txHash ∈ earlier.txHashes chainID, txHash ∉ later.txHashes chainID

end Chain

namespace Chain

variable [Account Acc] [Event Ev] [Base58] [Transaction Acc Ev Tx] [HashFunction] [Msgpack]
  [HeaderCodec] [AccountCodec Acc] [TxOutCodec] [EventCodec Ev] {cn : Chain Acc Ev Tx}
  {chainID : UInt8} {name : Bytes} {version : UInt16} {genHash : Hash256}
  {genesis : ContextData Acc Ev} {restarts : Nat} {blocks : List (Block Tx)} {st : Store Tx}

theorem Reaches.holds
    (reached : cn.Reaches (.fresh chainID name version) genHash genesis restarts blocks st)
    (short : blocks.length < maxHeight) : st.Holds blocks ∧ st.chainID = chainID := by
  induction reached with
  | init stored =>
    have low : ¬(Store.fresh chainID name version : Store Tx).height > 0 := by
      simp [Store.height, Store.fresh]
    unfold Chain.init at stored
    rw [if_neg low] at stored
    exact Store.storeGenesis_holds rfl rfl stored
  | connect _ cs b sp connected ih =>
    rw [length_append, length_singleton] at short
    obtain ⟨holds, sameChain⟩ := ih (by omega)
    have step := connectBlock_connected connected
    obtain ⟨db, map, stored⟩ := step.stored
    refine ⟨holds.connect step short, ?_⟩
    rw [stored]
    exact sameChain
  | refuse _ cs b sp refused ih =>
    rw [connectBlock_refused refused]
    exact ih short
  | restart _ fn restarted ih =>
    obtain ⟨holds, sameChain⟩ := ih short
    obtain ⟨restartedHolds, restartedChain⟩ := holds.restart short restarted
    exact ⟨restartedHolds, restartedChain.trans sameChain⟩

theorem Reaches.disjoint (collisionFree : Function.Injective HashFunction.hash)
    (timestamped : EncodesTimestamp Tx chainID)
    (reached : cn.Reaches (.fresh chainID name version) genHash genesis restarts blocks st)
    (short : blocks.length < maxHeight) : blocks.Pairwise (Disjoint chainID) := by
  induction reached with
  | init _ => exact List.Pairwise.nil
  | refuse _ cs b sp refused ih => exact ih short
  | restart _ fn restarted ih => exact ih short
  | @connect restarts blocks st st' before cs b sp connected ih =>
    rw [length_append, length_singleton] at short
    obtain ⟨holds, sameChain⟩ := before.holds (by omega)
    have step := connectBlock_connected connected
    rw [pairwise_append]
    refine ⟨ih (by omega), pairwise_singleton _ b, fun earlier member other only => ?_⟩
    rw [mem_singleton.mp only]
    intro txHash inEarlier inLater
    obtain ⟨old, oldListed, rfl⟩ := mem_map.mp inEarlier
    obtain ⟨new, newListed, same⟩ := mem_map.mp inLater
    have equal := timeSlot_of_hash collisionFree timestamped newListed oldListed same
    -- the slot is live, so the store knew the transaction and would have refused it
    rw [← sameChain] at newListed oldListed
    obtain ⟨inside, unused⟩ := step.checked new newListed
    have live := holds.live_of_later step (by omega) (outsideWindow_eq_false.mp inside).2.1
    have known := (holds.remembered new.1 new.2 live).mpr ⟨earlier, member, equal ▸ oldListed⟩
    rw [unused] at known
    cases known

/-- Two nodes that have connected the same blocks, however often each was restarted,
agree on every slot that a later block can accept. -/
theorem Reaches.same_time_slots {restarts' : Nat} {st' : Store Tx}
    (reached : cn.Reaches (.fresh chainID name version) genHash genesis restarts blocks st)
    (reached' : cn.Reaches (.fresh chainID name version) genHash genesis restarts' blocks st')
    (short : blocks.length < maxHeight) {timestamp : UInt64} (later : st.lastTimestamp < timestamp)
    {slot : UInt32} (inside : outsideWindow (toTimeSlot timestamp) slot = false) (key : Hash256) :
    st.timeSlotMap.hasKey slot key = st'.timeSlotMap.hasKey slot key := by
  obtain ⟨holds, sameChain⟩ := reached.holds short
  obtain ⟨holds', sameChain'⟩ := reached'.holds short
  have live : Live blocks slot := by
    intro last final
    rw [holds.lastTimestamp short final] at later
    have ordered := toTimeSlot_mono later
    have lower := (outsideWindow_eq_false.mp inside).2.1
    omega
  rw [Bool.eq_iff_iff, holds.remembered slot key live, holds'.remembered slot key live, sameChain,
    sameChain']

/-- In every run of fewer than `2 ^ 32` blocks, with any number of restarts, no transaction
hash occurs in two blocks, and on every slot that a later block can accept the map of
used time slots is that of a node that connected the same blocks and never restarted. -/
theorem no_transaction_in_two_blocks (cn : Chain Acc Ev Tx) (chainID : UInt8) (name : Bytes)
    (version : UInt16) (genHash : Hash256) (genesis : ContextData Acc Ev)
    (collisionFree : Function.Injective HashFunction.hash)
    (timestamped : EncodesTimestamp Tx chainID) (restarts : Nat) (blocks : List (Block Tx))
    (st : Store Tx)
    (reached : cn.Reaches (.fresh chainID name version) genHash genesis restarts blocks st)
    (short : blocks.length < maxHeight) :
    blocks.Pairwise (Disjoint chainID) ∧
      ∀ live, cn.Reaches (.fresh chainID name version) genHash genesis 0 blocks live →
        ∀ timestamp slot key, st.lastTimestamp < timestamp →
          outsideWindow (toTimeSlot timestamp) slot = false →
          st.timeSlotMap.hasKey slot key = live.timeSlotMap.hasKey slot key :=
  ⟨reached.disjoint collisionFree timestamped short, fun _ neverRestarted _ _ key later inside =>
    reached.same_time_slots neverRestarted short later inside key⟩

end Chain

open Instances

theorem setData_encodesTimestamp (chainID : UInt8) : Chain.EncodesTimestamp SetData chainID := by
  intro t t' tx tx' same
  have bodies := (append_inj same (by simp [Msgpack.encodeUint8, Msgpack.encodeUint16])).2
  have times : ByteOrder.littleEndian 8 tx.timestamp.toNat =
      ByteOrder.littleEndian 8 tx'.timestamp.toNat := by
    simp only [Transaction.marshal, append_assoc] at bodies
    exact (append_inj bodies (by simp)).1
  exact UInt64.toNat_inj.mp (ByteOrder.little_endian_injective tx.timestamp.toNat_lt
    tx'.timestamp.toNat_lt times)

/-- A transaction in the first block, then a restart. -/
theorem no_transaction_in_two_blocks_restarted :
    ∃ st, idleChain.Reaches (.fresh 1 [] 1) [] someGenesis 1 [firstBlock] st ∧
      [firstBlock].Pairwise (Chain.Disjoint 1) ∧ ∀ live,
        idleChain.Reaches (.fresh 1 [] 1) [] someGenesis 0 [firstBlock] live →
          ∀ timestamp slot key, st.lastTimestamp < timestamp →
            Chain.outsideWindow (toTimeSlot timestamp) slot = false →
            st.timeSlotMap.hasKey slot key = live.timeSlotMap.hasKey slot key := by
  have restarted : (Chain.restart [] someGenesis (fun _ st => (.ok (), st)) secondStore).1 =
      .ok () := by
    decide +kernel
  rcases outcome : Chain.restart [] someGenesis (fun _ st => (.ok (), st)) secondStore with
    ⟨result, st⟩
  rw [outcome] at restarted
  subst restarted
  have reached := Chain.Reaches.restart reaches_firstBlock _ outcome
  exact ⟨st, reached, Chain.no_transaction_in_two_blocks idleChain 1 [] 1 [] someGenesis
    (fun _ _ same => same) (setData_encodesTimestamp 1) 1 [firstBlock] _ reached (by decide)⟩

/-- After `2 ^ 32` blocks the height is zero again and the last timestamp reads as zero,
so the next block may lie in an old slot and repeat a transaction. -/
theorem transaction_repeated_after_height_overflow :
    ∃ blocks st, idleChain.Reaches (.fresh 1 [] 1) [] someGenesis 0 blocks st ∧
      blocks.length = 2 ^ 32 + 1 ∧ ¬blocks.Pairwise (Chain.Disjoint 1) := by
  obtain ⟨blocks, st, long⟩ := grown (2 ^ 32 - 2) (by decide)
  have wrapped : st.height = 0 := by
    rw [long.height]
    decide
  obtain ⟨contextHash, connected⟩ := connect_txBlock long.chainID long.account long.forgotten
    fun contextHash => validateHeader_next long.ready (fun high => absurd wrapped high) (by decide)
      [earlyHash] contextHash
  refine ⟨blocks ++ [txBlock st contextHash], _,
    .connect long.reached idleConsensus _ none (Prod.ext connected rfl), ?_, ?_⟩
  · rw [length_append, long.length, length_singleton, Nat.sub_add_cancel (by decide : 2 ≤ 2 ^ 32)]
  · intro disjoint
    have apart := (pairwise_append.mp disjoint).2.2 firstBlock long.first _
      (mem_singleton.mpr rfl)
    have inFirst : earlyHash ∈ firstBlock.txHashes 1 := mem_singleton.mpr rfl
    exact apart earlyHash inFirst (mem_singleton.mpr rfl)

end Fleta
