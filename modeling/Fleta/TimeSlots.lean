import Fleta.BlockReplay
import Fleta.Connect

/-!
# No transaction is executed in two blocks

A block accepts the transactions of its own time slot and of the slot before. Block
timestamps increase, so a slot that is pruned, or passed over by the rebuild after a
restart, is one that no later block can accept. The invariant of every run says that
on the live slots the map of the store is exactly the set of executed transactions.
-/

namespace Fleta

open SortedMap

variable {Acc Ev Tx : Type}

/-- Slots do not wrap: the largest timestamp lies in slot 3689348814. -/
theorem toNat_toTimeSlot (timestamp : UInt64) :
    (toTimeSlot timestamp).toNat = timestamp.toNat / 5000000000 := by
  have bound := timestamp.toNat_lt
  unfold toTimeSlot
  rw [UInt64.toNat_toUInt32, UInt64.toNat_div]
  have unit : (5 * second : UInt64).toNat = 5000000000 := by decide
  rw [unit]
  omega

theorem toTimeSlot_mono {earlier later : UInt64} (ordered : earlier < later) :
    (toTimeSlot earlier).toNat ≤ (toTimeSlot later).toNat := by
  rw [toNat_toTimeSlot, toNat_toTimeSlot]
  exact Nat.div_le_div_right (Nat.le_of_lt (UInt64.lt_iff_toNat_lt.mp ordered))

/-- The window of a block in natural numbers: nothing in slot zero, otherwise the slot of
the block and the one before. -/
theorem outsideWindow_eq_false {currentSlot slot : UInt32} :
    Chain.outsideWindow currentSlot slot = false ↔
      0 < currentSlot.toNat ∧ currentSlot.toNat ≤ slot.toNat + 1 ∧
        slot.toNat ≤ currentSlot.toNat := by
  have currentBound := currentSlot.toNat_lt
  simp only [Chain.outsideWindow, Bool.or_eq_false_iff, decide_eq_false_iff_not,
    UInt32.lt_iff_toNat_lt, GT.gt, UInt32.toNat_sub, UInt32.toNat_one]
  omega

namespace TimeSlotMap

theorem hasKey_addAll (src dst : TimeSlotMap) (slot : UInt32) (key : Bytes) :
    (addAll src dst).hasKey slot key = (src.hasKey slot key || dst.hasKey slot key) := by
  unfold hasKey addAll
  rw [get_foldl_eachAll _ slot slot
    (fun mp held => some (putAll mp (held.getD .empty))) fun map entry => by
      rw [get_put]
      split <;> simp_all]
  cases src.get slot with
  | none => simp
  | some mp =>
    cases dst.get slot with
    | none =>
      simp only [Option.getD_none, has_eq, get_putAll, get_empty]
      cases mp.get key <;> simp
    | some held =>
      simp only [Option.getD_some, has_eq, get_putAll]
      cases mp.get key <;> simp

theorem hasKey_prune (currentSlot : UInt32) (map : TimeSlotMap) (slot : UInt32) (key : Bytes) :
    (prune currentSlot map).hasKey slot key =
      (!decide (slot < currentSlot - 1) && map.hasKey slot key) := by
  unfold hasKey prune
  rw [get_foldl_delete]
  cases held : map.get slot with
  | none => simp
  | some mp =>
    have listed : slot ∈ map.eachAll.map Prod.fst := by
      rw [← has_iff_key_visited, held]
      rfl
    by_cases old : slot < currentSlot - 1
    · rw [if_pos (List.mem_filter.mpr ⟨listed, by simpa using old⟩)]
      simp [old]
    · rw [if_neg fun member => old (by simpa using (List.mem_filter.mp member).2)]
      simp [old]

end TimeSlotMap

section Remember

variable [HashFunction] [Msgpack] [Transaction Acc Ev Tx]

theorem Block.timeSlots_encodable {b : Block Tx} (encodable : b.encodable = true)
    (chainID : UInt8) :
    b.timeSlots chainID = (b.transactionTypes.zip b.transactions).map (timeSlotOf chainID) := by
  simp only [Block.encodable, Bool.and_eq_true, beq_iff_eq, decide_eq_true_eq] at encodable
  obtain ⟨⟨-, sameTypes⟩, sameSignatures⟩ := encodable
  obtain ⟨header, types, transactions, signatures, _⟩ := b
  dsimp only [Block.timeSlots] at *
  clear header
  induction types generalizing transactions signatures with
  | nil => rfl
  | cons t types ih =>
    cases transactions with
    | nil => simp at sameTypes
    | cons tx transactions =>
      cases signatures with
      | nil => simp at sameSignatures
      | cons sigs signatures =>
        simp only [List.length_cons, Nat.add_right_cancel_iff] at sameTypes sameSignatures
        simp only [List.zip_cons_cons, List.map_cons, List.cons.injEq, true_and]
        exact ih transactions signatures sameSignatures sameTypes

theorem Store.hasKey_rememberBlock (chainID : UInt8) (b : Block Tx) (map : TimeSlotMap)
    (slot : UInt32) (key : Bytes) :
    (Store.rememberBlock chainID b map).hasKey slot key = true ↔
      map.hasKey slot key = true ∨
        (slot ≥ toTimeSlot b.header.timestamp - 1 ∧
          (slot, key) ∈ (b.transactionTypes.zip b.transactions).map (timeSlotOf chainID)) := by
  unfold Store.rememberBlock
  induction b.transactionTypes.zip b.transactions generalizing map with
  | nil => simp
  | cons entry entries ih =>
    rw [List.foldl_cons, ih, List.map_cons, List.mem_cons]
    dsimp only
    split
    · rename_i inside
      rw [TimeSlotMap.hasKey_putKey]
      simp only [Bool.or_eq_true, decide_eq_true_eq, timeSlotOf, Prod.mk.injEq]
      constructor
      · rintro ((⟨rfl, rfl⟩ | held) | ⟨live, listed⟩)
        · exact .inr ⟨inside, .inl ⟨rfl, rfl⟩⟩
        · exact .inl held
        · exact .inr ⟨live, .inr listed⟩
      · rintro (held | ⟨live, (⟨rfl, rfl⟩ | listed)⟩)
        · exact .inl (.inr held)
        · exact .inl (.inl ⟨rfl, rfl⟩)
        · exact .inr ⟨live, listed⟩
    · rename_i outside
      constructor
      · rintro (held | ⟨live, listed⟩)
        · exact .inl held
        · exact .inr ⟨live, .inr listed⟩
      · rintro (held | ⟨live, (head | listed)⟩)
        · exact .inl held
        · simp only [timeSlotOf, Prod.mk.injEq] at head
          exact absurd (head.1 ▸ live) outside
        · exact .inr ⟨live, listed⟩

end Remember

namespace Chain

variable [Account Acc] [Event Ev] [Base58] [Transaction Acc Ev Tx] {cn : Chain Acc Ev Tx}

theorem executeTransactions_timeSlots {generator : Address} {currentSlot : UInt32}
    {entries : List (TxEntry Tx)} {i : Nat} {ctx after : Context Acc Ev} (sound : ctx.Sound)
    (ran : cn.executeTransactions generator currentSlot entries i ctx = (.ok (), after)) :
    after.Sound ∧ after.loader = ctx.loader ∧
      (∀ entry ∈ entries, outsideWindow currentSlot entry.timeSlot.1 = false ∧
        ctx.loader.hasTimeSlot entry.timeSlot.1 entry.timeSlot.2 = false) ∧
      ∀ slot key, after.top.timeSlotMap.hasKey slot key = true ↔
        ctx.top.timeSlotMap.hasKey slot key = true ∨
          (slot, key) ∈ entries.map TxEntry.timeSlot := by
  induction entries generalizing i ctx with
  | nil =>
    cases ran
    simp [sound]
  | cons entry rest ih =>
    obtain ⟨inside, _, mid, first, others⟩ := (executeTransactions_cons ..).mp ran
    have outcome := executeTransaction_outcome sound generator (processOf entry.t)
      (toTimeSlot (Transaction.timestamp entry.tx)) entry.txHash entry.tx entry.signers
      (UInt16.ofNat i)
    rw [first] at outcome
    rcases outcome with ⟨_, failed, _⟩ | ⟨_, _, failed, _⟩ | ⟨unknown, _, committed⟩
    · cases failed
    · cases failed
    obtain ⟨afterSound, afterLoader, checked, used⟩ := ih committed.sound others
    refine ⟨afterSound, afterLoader.trans committed.loader, ?_, ?_⟩
    · intro other member
      rcases List.mem_cons.mp member with head | tail
      · rw [head]
        exact ⟨inside, unknown⟩
      · have otherChecked := checked other tail
        rw [committed.loader] at otherChecked
        exact otherChecked
    · intro slot key
      rw [used, committed.timeSlots, List.map_cons, List.mem_cons]
      simp only [Bool.or_eq_true, decide_eq_true_eq, TxEntry.timeSlot, Prod.mk.injEq]
      grind

variable [HashFunction] [Msgpack] [HeaderCodec] [AccountCodec Acc] [TxOutCodec] [EventCodec Ev]

structure Connected (b : Block Tx) (st st' : Store Tx) : Prop where
  valid : st.validateHeader b.header = .ok ()
  encodable : b.encodable = true
  checked : ∀ used ∈ b.timeSlots st.chainID,
    outsideWindow (toTimeSlot b.header.timestamp) used.1 = false ∧
      st.timeSlotMap.hasKey used.1 used.2 = false
  stored : ∃ db map, st' = { st with
    db := db
    dbHeight := b.header.height
    blocks := Store.appendData b st.blocks
    cache := some ⟨b.header.height, b.header.hash, some b⟩
    timeSlotMap := map }
  timeSlots : ∀ slot key, st'.timeSlotMap.hasKey slot key = true ↔
    ¬slot < toTimeSlot b.header.timestamp - 1 ∧
      (st.timeSlotMap.hasKey slot key = true ∨ (slot, key) ∈ b.timeSlots st.chainID)

variable {st : Store Tx} {sp : Option SignerProvider} {ctx : Context Acc Ev} {b : Block Tx}

omit [EventCodec Ev] in
theorem executed_context
    (executed : cn.executeBlockOnContext st.chainID b sp (Context.new st.loader) = (.ok (), ctx)) :
    ctx.Sound ∧ ctx.loader = st.loader ∧
      (∀ used ∈ b.timeSlots st.chainID,
        outsideWindow (toTimeSlot b.header.timestamp) used.1 = false ∧
          st.timeSlotMap.hasKey used.1 used.2 = false) ∧
      ∀ slot key, ctx.top.timeSlotMap.hasKey slot key = true ↔
        (slot, key) ∈ b.timeSlots st.chainID := by
  obtain ⟨entries, start, mid, validated, opened, ran, _, closed⟩ :=
    (executeBlockOnContext_ok ..).mp executed
  have opening := runHooks_steps (cn.hooks (·.beforeExecuteTransactions))
    (Context.Sound.new st.loader : (Context.new st.loader : Context Acc Ev).Sound)
  rw [opened] at opening
  obtain ⟨midSound, midLoader, checked, used⟩ := executeTransactions_timeSlots opening.sound ran
  have closing := runHooks_steps (cn.hooks (·.afterExecuteTransactions b.view)) midSound
  rw [closed] at closing
  have startLoader : start.loader = st.loader := opening.loader
  have startSlots : start.top.timeSlotMap = .empty := opening.timeSlotMap
  refine ⟨closing.sound, closing.loader.trans (midLoader.trans startLoader), ?_, ?_⟩
  · rw [← validateTransactionSignatures_timeSlots validated, List.forall_mem_map]
    intro entry member
    have entryChecked := checked entry member
    rw [startLoader] at entryChecked
    exact entryChecked
  · intro slot key
    have unused : TimeSlotMap.hasKey .empty slot key = false := rfl
    rw [closing.timeSlotMap, used, startSlots, unused,
      validateTransactionSignatures_timeSlots validated]
    simp

omit [EventCodec Ev] [Event Ev] [Transaction Acc Ev Tx] [Msgpack] in
theorem applyContextData_sound (sound : ctx.Sound) (atop : ctx.loader = st.loader) :
    st.db.applyContextData ctx.top = .ok (Database.written ctx.top st.db) := by
  rw [Database.applyContextData, ctx.utxo_ids_match sound
    (atop ▸ Database.toLoader_coherent st.status st.db)]
  rfl

variable (cs : Consensus Acc Ev Tx)

omit [Transaction Acc Ev Tx] in
theorem connectBlockWithContext_cases (b : Block Tx) (st : Store Tx) (sound : ctx.Sound) (atop : ctx.loader = st.loader) :
    (∃ err, cn.connectBlockWithContext cs b ctx st = (.error err, st)) ∨
      ∃ db, b.encodable = true ∧ cn.connectBlockWithContext cs b ctx st =
        (.ok (), { st with
          db := db
          dbHeight := b.header.height
          blocks := Store.appendData b st.blocks
          cache := some ⟨b.header.height, b.header.hash, some b⟩
          timeSlotMap := (TimeSlotMap.addAll ctx.top.timeSlotMap st.timeSlotMap).prune
            (toTimeSlot b.header.timestamp) }) := by
  unfold connectBlockWithContext
  dsimp only
  split
  · exact .inl ⟨_, rfl⟩
  split
  · exact .inl ⟨_, rfl⟩
  have saving := runHooks_steps (cn.saveHooks cs b) sound.hash
  rcases saved : runHooks (cn.saveHooks cs b) ctx.hash.2 with ⟨result, final⟩
  rw [saved] at saving
  cases result with
  | error err => exact .inl ⟨err, rfl⟩
  | ok _ =>
    have sameSlots : final.top.timeSlotMap = ctx.top.timeSlotMap :=
      saving.timeSlotMap.trans (by rw [Context.hash_top])
    have finalOver : final.loader = st.loader :=
      saving.loader.trans ((Context.hash_loader ctx).trans atop)
    dsimp only
    unfold Store.storeBlock
    cases encodable : b.encodable with
    | false => exact .inl ⟨_, rfl⟩
    | true =>
      right
      refine ⟨Database.written final.top st.db, rfl, ?_⟩
      rw [Bool.not_true, if_neg Bool.false_ne_true]
      dsimp only
      rw [applyContextData_sound saving.sound finalOver, sameSlots]

theorem connectBlock_cases (b : Block Tx) (sp : Option SignerProvider) (st : Store Tx) :
    (∃ err, cn.connectBlock cs b sp st = (.error err, st)) ∨
      ∃ st', cn.connectBlock cs b sp st = (.ok (), st') ∧ Connected b st st' := by
  unfold connectBlock
  cases valid : st.validateHeader b.header with
  | error err => exact .inl ⟨err, rfl⟩
  | ok _ =>
  cases cs.validateSignature b.header b.signatures with
  | error err => exact .inl ⟨err, rfl⟩
  | ok _ =>
  rcases executed : cn.executeBlockOnContext st.chainID b sp (Context.new st.loader) with
    ⟨result, ctx⟩
  cases result with
  | error err => exact .inl ⟨err, rfl⟩
  | ok _ =>
    obtain ⟨sound, atop, checked, used⟩ := executed_context executed
    rcases cn.connectBlockWithContext_cases cs b st sound atop with refused | ⟨db, encodable, done⟩
    · exact .inl refused
    · refine .inr ⟨_, done, valid, encodable, checked, ⟨db, _, rfl⟩, fun slot key => ?_⟩
      rw [TimeSlotMap.hasKey_prune, TimeSlotMap.hasKey_addAll]
      simp only [Bool.and_eq_true, Bool.not_eq_true', decide_eq_false_iff_not, Bool.or_eq_true,
        used]
      exact and_congr_right fun _ => or_comm

variable {st' : Store Tx}

theorem connectBlock_connected {cs : Consensus Acc Ev Tx}
    (connected : cn.connectBlock cs b sp st = (.ok (), st')) : Connected b st st' := by
  rcases cn.connectBlock_cases cs b sp st with ⟨err, refused⟩ | ⟨other, done, result⟩
  · rw [refused] at connected
    cases connected
  · rw [done] at connected
    cases connected
    exact result

theorem connectBlock_refused {cs : Consensus Acc Ev Tx} {err : Err}
    (refused : cn.connectBlock cs b sp st = (.error err, st')) : st' = st := by
  rcases cn.connectBlock_cases cs b sp st with ⟨_, same⟩ | ⟨other, done, _⟩
  · rw [same] at refused
    cases refused
    rfl
  · rw [done] at refused
    cases refused

end Chain

end Fleta
