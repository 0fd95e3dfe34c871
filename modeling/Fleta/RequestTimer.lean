import Fleta.Primitives

/-!
# The request timer

A request for a block is pending under its height until the peer that it was sent to leaves
or it expires. The timer keeps the heights of each peer in a second map, which an expiry pass
edits while it builds the first one again. `Run` reports what a pass has collected after it
has given back the lock, so that other calls come in between.
-/

namespace Fleta

open SortedMap List

/-- Each item is allocated by one `Add`; the number stands for its address. -/
structure RequestTimerItem where
  height : UInt32
  expiredAt : UInt64
  value : Bytes
  address : Nat
deriving DecidableEq

abbrev ValueMap := SortedMap Bytes (SortedMap UInt32 Bool)

/-- The timer, with the part of `expired` that `Run` has still to report. The last four
fields are the history: what was added, what `RemovesByValue` deleted, what a pass took out
and what the handler was told. -/
structure RequestTimer where
  timerMap : SortedMap UInt32 RequestTimerItem
  valueMap : ValueMap
  handler : Bool
  expired : List RequestTimerItem
  added : List RequestTimerItem
  removed : List RequestTimerItem
  lapsed : List RequestTimerItem
  reported : List RequestTimerItem

/-- The order in which a loop goes through the entries of a map. -/
structure RangeOrder where
  arrange : {Entry : Type} → List Entry → List Entry
  perm : ∀ {Entry : Type} (entries : List Entry), (arrange entries).Perm entries

namespace RequestTimer

variable {handler : Bool} {rm : RequestTimer} {item : RequestTimerItem}

def new (handler : Bool) : RequestTimer := ⟨.empty, .empty, handler, [], [], [], [], []⟩

/-- A value without a set has the nil map, which is read as empty. -/
def heightMap (value : Bytes) (valueMap : ValueMap) : SortedMap UInt32 Bool :=
  (valueMap.get value).getD .empty

def add (height : UInt32) (now t : Int64) (value : Bytes) (rm : RequestTimer) :
    Bool × RequestTimer :=
  if rm.timerMap.has height then (false, rm)
  else
    let item := ⟨height, now.toUInt64 + t.toUInt64, value, rm.added.length⟩
    (true, { rm with
      timerMap := rm.timerMap.put height item
      valueMap := rm.valueMap.put value ((heightMap value rm.valueMap).put height true)
      added := rm.added ++ [item] })

def removesByValue (value : Bytes) (order : RangeOrder) (rm : RequestTimer) : RequestTimer :=
  let heights := order.arrange ((heightMap value rm.valueMap).eachAll.map Prod.fst)
  { rm with
    timerMap := heights.foldl (·.delete ·) rm.timerMap
    valueMap := rm.valueMap.delete value
    removed := rm.removed ++ (rm.timerMap.eachAll.filter (·.1 ∈ heights)).map Prod.snd }

/-- The variables of one pass. -/
structure Pass where
  expired : List RequestTimerItem
  valueMap : ValueMap
  remainMap : SortedMap UInt32 RequestTimerItem

def dropHeight (v : RequestTimerItem) (valueMap : ValueMap) : ValueMap :=
  let heights := (heightMap v.value valueMap).delete v.height
  if heights.len = 0 then valueMap.delete v.value else valueMap.put v.value heights

def Pass.visit (now : UInt64) (pass : Pass) (entry : UInt32 × RequestTimerItem) : Pass :=
  if entry.2.expiredAt ≤ now then
    { pass with
      expired := pass.expired ++ [entry.2]
      valueMap := dropHeight entry.2 pass.valueMap }
  else { pass with remainMap := pass.remainMap.put entry.1 entry.2 }

def pass (now : UInt64) (order : RangeOrder) (rm : RequestTimer) : Pass :=
  (order.arrange rm.timerMap.eachAll).foldl (Pass.visit now) ⟨[], rm.valueMap, .empty⟩

/-- The next step of `Run`: it reports an item of the last pass, or starts a pass. -/
def run (now : Int64) (order : RangeOrder) (rm : RequestTimer) : RequestTimer :=
  match rm.expired with
  | v :: rest => { rm with expired := rest, reported := rm.reported ++ [v] }
  | [] =>
    let pass := rm.pass now.toUInt64 order
    { rm with
      timerMap := pass.remainMap
      valueMap := pass.valueMap
      expired := if rm.handler then pass.expired else []
      lapsed := rm.lapsed ++ pass.expired }

inductive Step where
  | add (height : UInt32) (now t : Int64) (value : Bytes)
  | removesByValue (value : Bytes) (order : RangeOrder)
  | run (now : Int64) (order : RangeOrder)

def step (rm : RequestTimer) : Step → RequestTimer
  | .add height now t value => (rm.add height now t value).2
  | .removesByValue value order => rm.removesByValue value order
  | .run now order => rm.run now order

def after (steps : List Step) (rm : RequestTimer) : RequestTimer := steps.foldl step rm

/-- The two maps agree, and no value keeps an empty set. The entries are those of the forward
map, in any order. -/
structure Agrees (entries : List (UInt32 × RequestTimerItem)) (valueMap : ValueMap) : Prop where
  distinct : (entries.map Prod.fst).Nodup
  owner : ∀ entry ∈ entries, entry.2.height = entry.1
  kept : ∀ value height, (heightMap value valueMap).has height = true ↔
    ∃ item, (height, item) ∈ entries ∧ item.value = value
  filled : ∀ value heights, valueMap.get value = some heights → heights.len ≠ 0

theorem heightMap_put (value key : Bytes) (heights : SortedMap UInt32 Bool) (valueMap : ValueMap) :
    heightMap key (valueMap.put value heights) =
      if value = key then heights else heightMap key valueMap := by
  rw [heightMap, get_put]
  split <;> rfl

theorem heightMap_delete (value key : Bytes) (valueMap : ValueMap) :
    heightMap key (valueMap.delete value) =
      if value = key then .empty else heightMap key valueMap := by
  rw [heightMap, get_delete]
  split <;> rfl

theorem heightMap_dropHeight (v : RequestTimerItem) (key : Bytes) (valueMap : ValueMap) :
    heightMap key (dropHeight v valueMap) =
      if v.value = key then (heightMap v.value valueMap).delete v.height
      else heightMap key valueMap := by
  unfold dropHeight
  by_cases emptied : ((heightMap v.value valueMap).delete v.height).len = 0
  · rw [if_pos emptied, heightMap_delete, ← len_eq_zero.mp emptied]
  · rw [if_neg emptied, heightMap_put]

namespace Agrees

variable {entries : List (UInt32 × RequestTimerItem)} {valueMap : ValueMap}

theorem perm {other : List (UInt32 × RequestTimerItem)} (same : entries.Perm other)
    (agrees : Agrees entries valueMap) : Agrees other valueMap where
  distinct := (same.map Prod.fst).nodup_iff.mp agrees.distinct
  owner entry member := agrees.owner entry (same.mem_iff.mpr member)
  kept value height := by simp only [agrees.kept, same.mem_iff]
  filled := agrees.filled

theorem add (item : RequestTimerItem) (agrees : Agrees entries valueMap)
    (absent : item.height ∉ entries.map Prod.fst) :
    Agrees ((item.height, item) :: entries)
      (valueMap.put item.value ((heightMap item.value valueMap).put item.height true)) where
  distinct := nodup_cons.mpr ⟨absent, agrees.distinct⟩
  owner := forall_mem_cons.mpr ⟨rfl, agrees.owner⟩
  kept value height := by
    have before := agrees.kept value height
    rw [heightMap_put]
    simp only [has_eq] at before ⊢
    by_cases same : item.value = value
    · subst same
      rw [if_pos rfl, get_put]
      by_cases here : item.height = height
      · subst here
        simp
      · simp [here, before, Ne.symm here]
    · simp [same, before]
      grind
  filled := forall_get_put agrees.filled (by
    rw [Ne, len_eq_zero]
    intro empty
    have held := get_put_self (heightMap item.value valueMap) item.height true
    simp [empty] at held)

theorem dropHeight {height : UInt32} (agrees : Agrees ((height, item) :: entries) valueMap) :
    Agrees entries (RequestTimer.dropHeight item valueMap) := by
  obtain ⟨absent, distinct⟩ := nodup_cons.mp agrees.distinct
  obtain ⟨own, owner⟩ := forall_mem_cons.mp agrees.owner
  refine ⟨distinct, owner, fun value key => ?_, ?_⟩
  · have before := agrees.kept value key
    have gone : ∀ other, (height, other) ∉ entries := fun other member =>
      absent (mem_map.mpr ⟨_, member, rfl⟩)
    rw [heightMap_dropHeight]
    simp only [has_eq] at before ⊢
    split
    · rw [get_delete]
      grind
    · grind
  · simp only [RequestTimer.dropHeight]
    split
    · exact fun value heights found => agrees.filled value heights (get_of_get_delete found)
    · rename_i left
      exact forall_get_put agrees.filled left

theorem removeValue (agrees : Agrees entries valueMap) (value : Bytes) :
    Agrees (entries.filter (·.2.value ≠ value)) (valueMap.delete value) where
  distinct := agrees.distinct.sublist (filter_sublist.map _)
  owner entry member := agrees.owner entry (mem_of_mem_filter member)
  kept key height := by
    have before := agrees.kept key height
    rw [heightMap_delete]
    split
    · rename_i same
      simp [same]
    · rename_i different
      rw [before]
      grind
  filled key heights found := agrees.filled key heights (get_of_get_delete found)

end Agrees

/-- A pass with the entries that it has still to visit. -/
structure Pass.Visits (now : UInt64) (pending : List RequestTimerItem)
    (rest : List (UInt32 × RequestTimerItem)) (pass : Pass) : Prop where
  agrees : Agrees (rest ++ pass.remainMap.eachAll) pass.valueMap
  accounted : pending.Perm ((rest ++ pass.remainMap.eachAll).map Prod.snd ++ pass.expired)
  late : ∀ entry ∈ pass.remainMap.eachAll, now < entry.2.expiredAt

namespace Pass.Visits

variable {now : UInt64} {pending : List RequestTimerItem}
  {rest : List (UInt32 × RequestTimerItem)} {pass : Pass}

theorem visit {entry : UInt32 × RequestTimerItem} (visits : Visits now pending (entry :: rest) pass) :
    Visits now pending rest (pass.visit now entry) := by
  unfold Pass.visit
  split
  · refine ⟨visits.agrees.dropHeight, visits.accounted.trans ?_, visits.late⟩
    rw [← append_assoc]
    exact (perm_append_singleton _ _).symm
  · rename_i late
    have absent : pass.remainMap.get entry.1 = none := by
      have distinct := visits.agrees.distinct
      rw [cons_append, map_cons, map_append, nodup_cons, mem_append,
        ← has_iff_key_visited] at distinct
      simpa using fun held => distinct.1 (.inr held)
    have listed := eachAll_put_absent entry.2 absent
    have moved : (entry :: rest ++ pass.remainMap.eachAll).Perm
        (rest ++ (pass.remainMap.put entry.1 entry.2).eachAll) :=
      perm_middle.symm.trans (listed.symm.append_left rest)
    refine ⟨visits.agrees.perm moved, visits.accounted.trans ((moved.map _).append_right _), ?_⟩
    intro other member
    obtain rfl | member := mem_cons.mp (listed.mem_iff.mp member)
    · exact UInt64.not_le.mp late
    · exact visits.late other member

theorem foldl (visits : Visits now pending rest pass) :
    Visits now pending [] (rest.foldl (Pass.visit now) pass) := by
  induction rest generalizing pass with
  | nil => exact visits
  | cons entry rest ih => exact ih visits.visit

end Pass.Visits

theorem pass_visits (agrees : Agrees rm.timerMap.eachAll rm.valueMap)
    (now : UInt64) (order : RangeOrder) :
    Pass.Visits now (rm.timerMap.eachAll.map Prod.snd) [] (rm.pass now order) := by
  have arranged := (order.perm rm.timerMap.eachAll).symm
  apply Pass.Visits.foldl
  constructor
  · rw [eachAll_empty, append_nil]
    exact agrees.perm arranged
  · rw [eachAll_empty, append_nil, append_nil]
    exact arranged.map _
  · simp [eachAll_empty]

theorem eachAll_foldl_delete (heights : List UInt32) (timerMap : SortedMap UInt32 RequestTimerItem) :
    (heights.foldl (·.delete ·) timerMap).eachAll.Perm
      (timerMap.eachAll.filter (·.1 ∉ heights)) := by
  apply eachAll_perm
  · exact (each_all_keys_nodup timerMap).sublist (filter_sublist.map _)
  · intro height item
    rw [get_foldl_delete, mem_filter, mem_eachAll]
    split <;> simp [*]

/-- What a run from a new timer keeps. -/
structure Sound (handler : Bool) (rm : RequestTimer) : Prop where
  agrees : Agrees rm.timerMap.eachAll rm.valueMap
  accounted : rm.added.Perm (rm.timerMap.eachAll.map Prod.snd ++ (rm.removed ++ rm.lapsed))
  numbered : rm.added.map RequestTimerItem.address = range rm.added.length
  handled : rm.handler = handler
  told : rm.reported ++ rm.expired = if handler then rm.lapsed else []

namespace Sound

section

variable (sound : Sound handler rm)

include sound

theorem add (height : UInt32) (now t : Int64) (value : Bytes) :
    Sound handler (rm.add height now t value).2 := by
  unfold RequestTimer.add
  split
  · exact sound
  · rename_i unknown
    have absent : rm.timerMap.get height = none := by simpa using unknown
    let item : RequestTimerItem := ⟨height, now.toUInt64 + t.toUInt64, value, rm.added.length⟩
    have listed := eachAll_put_absent item absent
    have agrees := sound.agrees.add item (by
      rw [← has_iff_key_visited, absent]
      simp)
    refine ⟨agrees.perm listed.symm, ?_, ?_, sound.handled, sound.told⟩
    · refine (perm_append_singleton _ _).trans ((sound.accounted.cons _).trans ?_)
      exact (listed.map Prod.snd).symm.append_right _
    · simp [sound.numbered, range_succ]

theorem removesByValue (value : Bytes) (order : RangeOrder) :
    Sound handler (rm.removesByValue value order) := by
  unfold RequestTimer.removesByValue
  generalize visited : order.arrange _ = heights
  have left := eachAll_foldl_delete heights rm.timerMap
  have chosen : ∀ entry ∈ rm.timerMap.eachAll, entry.1 ∈ heights ↔ entry.2.value = value := by
    rintro ⟨height, item⟩ member
    rw [← visited, (order.perm _).mem_iff, ← has_iff_key_visited, ← has_eq,
      sound.agrees.kept]
    have own : ∀ other, (height, other) ∈ rm.timerMap.eachAll ↔ other = item := by
      intro other
      rw [mem_eachAll, (mem_eachAll _ _ _).mp member, Option.some_inj, eq_comm]
    simp [own]
  refine ⟨?_, ?_, sound.numbered, sound.handled, sound.told⟩
  · have same : rm.timerMap.eachAll.filter (·.1 ∉ heights) =
        rm.timerMap.eachAll.filter (·.2.value ≠ value) :=
      filter_congr fun entry member => by simp [chosen entry member]
    rw [same] at left
    exact (sound.agrees.removeValue value).perm left.symm
  · refine sound.accounted.trans ?_
    have parts := filter_append_perm (·.1 ∈ heights) rm.timerMap.eachAll
    apply perm_iff_count.mpr
    intro item
    have counts := ((left.append_left _).trans (by simpa using parts)).map Prod.snd |>.count_eq item
    simp only [map_append, count_append] at counts ⊢
    omega

theorem run (now : Int64) (order : RangeOrder) : Sound handler (rm.run now order) := by
  have told := sound.told
  unfold RequestTimer.run
  split
  · rename_i v rest waiting
    rw [waiting] at told
    exact ⟨sound.agrees, sound.accounted, sound.numbered, sound.handled, by simpa using told⟩
  · rename_i idle
    have visits := pass_visits sound.agrees now.toUInt64 order
    refine ⟨visits.agrees, sound.accounted.trans ?_, sound.numbered, sound.handled, ?_⟩
    · apply perm_iff_count.mpr
      intro item
      have counts := visits.accounted.count_eq item
      simp only [nil_append, count_append] at counts ⊢
      omega
    · rw [idle, append_nil] at told
      rw [told, sound.handled]
      split <;> rfl

theorem step (call : Step) : Sound handler (rm.step call) := by
  cases call with
  | add height now t value => exact sound.add height now t value
  | removesByValue value order => exact sound.removesByValue value order
  | run now order => exact sound.run now order

theorem after (steps : List Step) : Sound handler (rm.after steps) := by
  induction steps generalizing rm with
  | nil => exact sound
  | cons call steps ih => exact ih (sound.step call)

end

theorem new (handler : Bool) : Sound handler (new handler) where
  agrees := by
    rw [RequestTimer.new, eachAll_empty]
    exact ⟨nodup_nil, by simp, by simp [heightMap], by simp⟩
  accounted := .nil
  numbered := rfl
  handled := rfl
  told := by simp [RequestTimer.new]

/-- Every added request is in one place, and there once. -/
theorem count_eq_one (sound : Sound handler rm) (member : item ∈ rm.added) :
    (rm.timerMap.eachAll.map Prod.snd).count item + (rm.removed.count item + rm.lapsed.count item) =
      1 := by
  have distinct : rm.added.Nodup := .of_map RequestTimerItem.address (by
    rw [sound.numbered]
    exact nodup_range)
  rw [← count_append, ← count_append, ← sound.accounted.count_eq]
  exact count_eq_one_of_mem distinct member

end Sound

/-- The history only grows. -/
structure Grows (rm next : RequestTimer) : Prop where
  removed : rm.removed ⊆ next.removed
  lapsed : rm.lapsed ⊆ next.lapsed

theorem step_grows (rm : RequestTimer) (call : Step) : Grows rm (rm.step call) := by
  cases call with
  | add height now t value =>
    rw [step, add]
    split <;> exact ⟨.refl _, .refl _⟩
  | removesByValue value order => exact ⟨subset_append_left _ _, .refl _⟩
  | run now order =>
    rw [step, run]
    split
    · exact ⟨.refl _, .refl _⟩
    · exact ⟨.refl _, subset_append_left _ _⟩

variable (steps : List Step)

theorem after_grows (rm : RequestTimer) : Grows rm (rm.after steps) := by
  induction steps generalizing rm with
  | nil => exact ⟨.refl _, .refl _⟩
  | cons call steps ih =>
    have first := rm.step_grows call
    have rest := ih (rm.step call)
    exact ⟨List.Subset.trans first.removed rest.removed, List.Subset.trans first.lapsed rest.lapsed⟩

def isRun : Step → Bool
  | .run _ _ => true
  | _ => false

/-- `Run` reports one item a step, in the order of the pass. -/
theorem mem_reported_after
    (near : item ∈ rm.reported ∨ item ∈ rm.expired.take (steps.countP isRun)) :
    item ∈ (rm.after steps).reported := by
  induction steps generalizing rm with
  | nil => simpa [after] using near
  | cons call steps ih =>
    apply ih
    cases call with
    | add height now t value =>
      rw [step, add]
      split <;> exact near
    | removesByValue value order => exact near
    | run now order =>
      rw [countP_cons_of_pos rfl] at near
      rw [step, run]
      split
      · rename_i v rest waiting
        rw [waiting, take_succ_cons, mem_cons] at near
        rw [mem_append, mem_singleton]
        tauto
      · rename_i idle
        rw [idle, take_nil] at near
        exact .inl (near.resolve_right not_mem_nil)

theorem Sound.ended (sound : Sound handler rm) (member : item ∈ rm.added) {now : Int64}
    (idle : rm.expired = []) (due : item.expiredAt ≤ now.toUInt64) (order : RangeOrder) :
    item ∈ (rm.run now order).removed ∨ item ∈ (rm.run now order).lapsed := by
  have kept : item ∈ (rm.run now order).added := by
    rw [RequestTimer.run, idle]
    exact member
  have listed := (sound.run now order).accounted.mem_iff.mp kept
  rw [mem_append, mem_append] at listed
  apply listed.resolve_left
  intro pending
  obtain ⟨entry, left, rfl⟩ := mem_map.mp pending
  rw [RequestTimer.run, idle] at left
  have late := (pass_visits sound.agrees now.toUInt64 order).late entry left
  exact UInt64.not_lt.mpr due late

theorem Sound.reported_count (sound : Sound handler rm) (once : rm.lapsed.count item ≤ 1)
    (heard : handler = true → item ∈ rm.lapsed → item ∈ rm.reported) :
    rm.reported.count item = if handler then rm.lapsed.count item else 0 := by
  have told := congrArg (count item) sound.told
  rw [count_append] at told
  cases handler with
  | false => exact Nat.eq_zero_of_add_eq_zero_right told
  | true =>
    rw [if_pos rfl] at told ⊢
    by_cases lapsed : item ∈ rm.lapsed
    · have reported := count_pos_iff.mpr (heard rfl lapsed)
      omega
    · have never := count_eq_zero.mpr lapsed
      omega

/-- The maps agree after every run, and an added request is pending, removed or expired, once.
After a pass at or after its deadline it is removed or expired, and `Run` tells a handler, if
there is one, once of an expired request and never of a removed one. -/
theorem requests_end_once (handler : Bool) (steps : List Step) :
    let rm := (new handler).after steps
    (∀ value height, (heightMap value rm.valueMap).has height = true ↔
      ∃ item, rm.timerMap.get height = some item ∧ item.value = value) ∧
    (∀ value heights, rm.valueMap.get value = some heights → heights.len ≠ 0) ∧
    ∀ item ∈ rm.added,
      (rm.timerMap.eachAll.map Prod.snd).count item +
        (rm.removed.count item + rm.lapsed.count item) = 1 ∧
      ∀ now order later, rm.expired = [] → item.expiredAt ≤ now.toUInt64 →
        (rm.run now order).expired.length ≤ later.countP isRun →
        let done := (rm.run now order).after later
        done.removed.count item + done.lapsed.count item = 1 ∧
          done.reported.count item = if handler then done.lapsed.count item else 0 := by
  intro rm
  have sound : Sound handler rm := (Sound.new handler).after steps
  refine ⟨fun value height => ?_, sound.agrees.filled, ?_⟩
  · rw [sound.agrees.kept]
    simp only [mem_eachAll]
  intro item member
  refine ⟨sound.count_eq_one member, fun now order later idle due enough => ?_⟩
  intro done
  have grows : Grows (rm.run now order) done := after_grows later _
  have next : Sound handler (rm.run now order) := sound.run now order
  have finished : Sound handler done := next.after later
  have ended := sound.ended member idle due order
  have gone : item ∈ done.removed ++ done.lapsed :=
    mem_append.mpr (ended.imp (grows.removed ·) (grows.lapsed ·))
  have one := finished.count_eq_one (finished.accounted.mem_iff.mpr (mem_append_right _ gone))
  have positive := count_pos_iff.mpr gone
  rw [count_append] at positive
  refine ⟨by omega, finished.reported_count (by omega) fun told lapsed => ?_⟩
  · have unremoved : item ∉ (rm.run now order).removed := by
      intro cancelled
      have removed := count_pos_iff.mpr (grows.removed cancelled)
      have again := count_pos_iff.mpr lapsed
      omega
    have waits := next.told
    rw [told, if_pos rfl] at waits
    apply mem_reported_after
    rw [take_of_length_le enough, ← mem_append, waits]
    exact ended.resolve_left unremoved

end RequestTimer

namespace Instances

open RequestTimer

def ascending : RangeOrder := ⟨id, .refl⟩

/-- A timer without a handler drops an expired request: it is not removed, and nobody is
told. The formulator node has such a timer. -/
theorem expired_untold :
    let rm := (new false).after [.add 5 0 0 [1]]
    let item : RequestTimerItem := ⟨5, 0, [1], 0⟩
    let done := (rm.run 0 ascending).after []
    item ∈ rm.added ∧ rm.expired = [] ∧ item.expiredAt ≤ (0 : Int64).toUInt64 ∧
      (rm.run 0 ascending).expired.length ≤ [].countP isRun ∧ done.timerMap.get 5 = none ∧
      ¬done.removed.count item + done.reported.count item = 1 := by
  decide

end Instances

end Fleta
