import Fleta.PofConsensus

/-!
# The order of the rank table

The candidates are sorted by their scores, and by their addresses where the scores are the
same, and every address occurs once. Every change of the table takes a candidate out, puts
one in whose address is new, or raises the first one, and keeps the table in order.
-/

namespace Fleta.Pof

open ByteOrder List

namespace Rank

theorem toNat_score (rank : Rank) :
    rank.score.toNat = rank.phase.toNat * 2 ^ 32 + fromLittleEndian (rank.hashSpace.take 4) := by
  have low := from_little_endian_lt (rank.hashSpace.take 4)
  have short : (rank.hashSpace.take 4).length ≤ 4 := length_take_le 4 _
  have width : 256 ^ (rank.hashSpace.take 4).length ≤ 256 ^ 4 := Nat.pow_le_pow_right (by decide) short
  have high := rank.phase.toNat_lt
  have fits : rank.phase.toNat * 2 ^ 32 + fromLittleEndian (rank.hashSpace.take 4) < 2 ^ 64 := by
    omega
  exact UInt64.toNat_ofNat_of_lt' fits

variable {a b : Rank}

theorem less_iff :
    a.less b = true ↔ a.score.toNat < b.score.toNat ∨
      (a.score.toNat = b.score.toNat ∧ compare a.address b.address = .lt) := by
  simp only [less, Bool.or_eq_true, Bool.and_eq_true, decide_eq_true_eq, beq_iff_eq,
    Ordering.isLT_iff_eq_lt, UInt64.lt_iff_toNat_lt, UInt64.toNat_inj]

/-- The order by score and then by address. -/
theorem lex_trans {x y z : Nat} {p q r : Address}
    (first : x < y ∨ (x = y ∧ compare p q = .lt)) (second : y < z ∨ (y = z ∧ compare q r = .lt)) :
    x < z ∨ (x = z ∧ compare p r = .lt) := by
  rcases first with below | ⟨same, below⟩
  · rcases second with below' | ⟨same', below'⟩
    · exact .inl (by omega)
    · exact .inl (by omega)
  · rcases second with below' | ⟨same', below'⟩
    · exact .inl (by omega)
    · exact .inr ⟨by omega, Std.TransCmp.lt_trans below below'⟩

theorem less_trans (a b c : Rank) (first : a.less b = true) (second : b.less c = true) :
    a.less c = true := by
  rw [less_iff] at first second ⊢
  exact lex_trans first second

theorem less_irrefl (a : Rank) : a.less a = false := by
  rw [← Bool.not_eq_true, less_iff]
  rintro (below | ⟨_, below⟩)
  · omega
  · have self : compare a.address a.address = .eq := Std.ReflOrd.compare_self
    rw [self] at below
    cases below

theorem less_asymm (below : a.less b = true) : b.less a = false := by
  by_contra above
  rw [Bool.not_eq_false] at above
  have self := less_trans a b a below above
  rw [less_irrefl] at self
  cases self

theorem less_total (other : a.address ≠ b.address) : a.less b = true ∨ b.less a = true := by
  simp only [less_iff]
  rcases Nat.lt_trichotomy a.score.toNat b.score.toNat with below | same | above
  · exact .inl (.inl below)
  · cases order : compare a.address b.address with
    | lt => exact .inl (.inr ⟨same, rfl⟩)
    | eq => exact absurd (Std.LawfulEqCmp.eq_of_compare order) other
    | gt => exact .inr (.inr ⟨same.symm, Std.OrientedCmp.gt_iff_lt.mp order⟩)
  · exact .inr (.inl above)

theorem phase_le_of_less (below : a.less b = true) : a.phase.toNat ≤ b.phase.toNat := by
  have low := from_little_endian_lt (b.hashSpace.take 4)
  have short : (b.hashSpace.take 4).length ≤ 4 := length_take_le 4 _
  have width : 256 ^ (b.hashSpace.take 4).length ≤ 256 ^ 4 := Nat.pow_le_pow_right (by decide) short
  have scores : a.score.toNat ≤ b.score.toNat := by
    rcases less_iff.mp below with below | ⟨same, _⟩
    · omega
    · omega
  rw [toNat_score, toNat_score] at scores
  omega

end Rank

structure Ordered (ranks : List Rank) : Prop where
  sorted : ranks.Pairwise fun a b => a.less b = true
  distinct : (ranks.map Rank.address).Nodup

namespace RankTable

variable (ranks : List Rank)

theorem insertRankToList_perm (s : Rank) : (insertRankToList ranks s).Perm (s :: ranks) :=
  sortedInsert_perm Rank.less ranks s

@[simp] theorem mem_insertRankToList {ranks : List Rank} {s r : Rank} :
    r ∈ insertRankToList ranks s ↔ r = s ∨ r ∈ ranks := mem_sortedInsert Rank.less

@[simp] theorem length_insertRankToList (s : Rank) :
    (insertRankToList ranks s).length = ranks.length + 1 := length_sortedInsert Rank.less ranks s

end RankTable

namespace Ordered

open RankTable

variable {ranks : List Rank}

theorem nil : Ordered [] := ⟨List.Pairwise.nil, nodup_nil⟩

theorem sublist {part : List Rank} (ordered : Ordered ranks) (sub : part.Sublist ranks) :
    Ordered part :=
  ⟨ordered.sorted.sublist sub, ordered.distinct.sublist (sub.map Rank.address)⟩

variable {rest : List Rank} {top : Rank}

theorem tail (ordered : Ordered (top :: rest)) : Ordered rest :=
  ordered.sublist (sublist_cons_self top rest)

theorem filter (ordered : Ordered ranks) (keep : Rank → Bool) : Ordered (ranks.filter keep) :=
  ordered.sublist filter_sublist

theorem insert (ordered : Ordered ranks) {s : Rank} (fresh : s.address ∉ ranks.map Rank.address) :
    Ordered (insertRankToList ranks s) := by
  constructor
  · apply sortedInsert_sorted Rank.less_trans ordered.sorted
    intro r listed
    apply Rank.less_total
    intro same
    exact fresh (same ▸ mem_map_of_mem listed)
  · rw [((insertRankToList_perm ranks s).map Rank.address).nodup_iff, map_cons, nodup_cons]
    exact ⟨fresh, ordered.distinct⟩

theorem reinsert (ordered : Ordered (top :: rest)) {s : Rank}
    (same : s.address = top.address) : Ordered (insertRankToList rest s) := by
  apply ordered.tail.insert
  rw [same]
  exact (nodup_cons.mp ordered.distinct).1

theorem head_phase_le (ordered : Ordered (top :: rest)) :
    ∀ r ∈ top :: rest, top.phase.toNat ≤ r.phase.toNat := by
  intro r listed
  rcases mem_cons.mp listed with rfl | later
  · exact Nat.le_refl _
  · exact Rank.phase_le_of_less (rel_of_pairwise_cons ordered.sorted later)

theorem eq_of_perm {ranks' : List Rank} (ordered : Ordered ranks) (ordered' : Ordered ranks')
    (perm : ranks.Perm ranks') : ranks = ranks' := by
  apply perm.eq_of_pairwise _ ordered.sorted ordered'.sorted
  intro a b _ _ below above
  rw [Rank.less_asymm below] at above
  cases above

end Ordered

/-- One change of a table whose new ranks get the phase `phase`. -/
inductive UpdateStep (phase : UInt32) : List Rank → List Rank → Prop
  | remove (ranks : List Rank) (addr : Address) :
      UpdateStep phase ranks (ranks.filter fun s => s.address != addr)
  | add {ranks : List Rank} {s : Rank} (level : s.phase = phase)
      (fresh : s.address ∉ ranks.map Rank.address) :
      UpdateStep phase ranks (RankTable.insertRankToList ranks s)

abbrev Updates (phase : UInt32) : List Rank → List Rank → Prop :=
  Relation.ReflTransGen (UpdateStep phase)

/-- What an update of the table can do. It is refused for its phase only where the phase is
below the smallest one of the table at that moment. -/
structure Updated (phase : UInt32) (rt : RankTable) (out : Except Err Unit × RankTable) : Prop where
  height : out.2.height = rt.height
  steps : Updates phase rt.candidates out.2.candidates
  invalid : out.1 = .error .invalidPhase →
    out.2.candidates ≠ [] ∧ phase < out.2.smallestPhase

theorem Updated.refl (phase : UInt32) (rt : RankTable) : Updated phase rt (.ok (), rt) :=
  ⟨rfl, .refl, fun failed => by cases failed⟩

variable {phase : UInt32}

theorem Updated.trans {rt rt' : RankTable} {result : Except Err Unit}
    {out : Except Err Unit × RankTable} (first : Updated phase rt (result, rt'))
    (second : Updated phase rt' out) : Updated phase rt out :=
  ⟨second.height.trans first.height, first.steps.trans second.steps, second.invalid⟩

variable {ranks ranks' : List Rank}

theorem Updates.ordered
    (steps : Updates phase ranks ranks') (ordered : Ordered ranks) : Ordered ranks' := by
  induction steps with
  | refl => exact ordered
  | tail _ last ih =>
    cases last with
    | remove addr => exact ih.filter _
    | add level fresh => exact ih.insert fresh

theorem Updates.forall_phase
    (steps : Updates phase ranks ranks') (bound : UInt32 → Prop) (new : bound phase)
    (old : ∀ r ∈ ranks, bound r.phase) : ∀ r ∈ ranks', bound r.phase := by
  induction steps with
  | refl => exact old
  | tail _ last ih =>
    cases last with
    | remove addr => exact fun r listed => ih r (mem_of_mem_filter listed)
    | add level fresh =>
      intro r listed
      rcases RankTable.mem_insertRankToList.mp listed with rfl | before
      · rw [level]
        exact new
      · exact ih r before

namespace RankTable

variable {rt : RankTable} {addr : Address}

theorem rankOf_isSome_iff :
    (rt.rankOf addr).isSome = true ↔ addr ∈ rt.candidates.map Rank.address := by
  rw [rankOf, find?_isSome, mem_map]
  simp only [beq_iff_eq]

theorem rankOf_some {r : Rank} (found : rt.rankOf addr = some r) :
    r ∈ rt.candidates ∧ r.address = addr := by
  have matched := find?_some found
  exact ⟨mem_of_find?_eq_some found, eq_of_beq matched⟩

theorem removeRank_updated (phase : UInt32) (addr : Address) (rt : RankTable) :
    Updated phase rt (.ok (), rt.removeRank addr) :=
  ⟨rfl, .single (.remove _ addr), fun failed => by cases failed⟩

theorem addRank_updated (s : Rank) (rt : RankTable) : Updated s.phase rt (rt.addRank s) := by
  unfold addRank
  split
  · rename_i low
    exact ⟨rfl, .refl, fun _ => low⟩
  · split
    · exact ⟨rfl, .refl, fun failed => by cases failed⟩
    · rename_i absent
      rw [rankOf_isSome_iff] at absent
      exact ⟨rfl, .single (.add rfl absent), fun failed => by cases failed⟩

theorem removeAll_updated (phase : UInt32) (removed : List Address) (rt : RankTable) :
    Updated phase rt (.ok (), removed.foldl (fun rt addr => rt.removeRank addr) rt) := by
  induction removed generalizing rt with
  | nil => exact .refl phase rt
  | cons addr rest ih => exact (removeRank_updated phase addr rt).trans (ih _)

end RankTable

namespace Consensus

open RankTable

variable {Acc Ev : Type} [HashFunction]

theorem updateFormulator_updated (targetHeight phase : UInt32) (addr own : Address)
    (info : FormulatorInfo) (rt : RankTable) :
    Updated phase rt (updateFormulator targetHeight phase addr own info rt) := by
  have added : ∀ rt, Updated phase rt (rt.addRank (rankFor addr info phase)) :=
    fun rt => addRank_updated (rankFor addr info phase) rt
  unfold updateFormulator
  split
  · split
    · exact added rt
    · exact .refl phase rt
  · split
    · split
      · exact removeRank_updated phase addr rt
      · split
        · exact (removeRank_updated phase addr rt).trans (added _)
        · exact .refl phase rt
    · split
      · exact added rt
      · exact .refl phase rt

variable [Account Acc] [FormulatorAccount Acc]

theorem updateFormulators_updated (targetHeight phase : UInt32) (accounts : List (Address × Acc))
    (rt : RankTable) : Updated phase rt (updateFormulators targetHeight phase accounts rt) := by
  induction accounts generalizing rt with
  | nil => exact .refl phase rt
  | cons entry rest ih =>
    obtain ⟨addr, acc⟩ := entry
    rw [updateFormulators]
    split
    · exact ih rt
    · rename_i info _
      have first := updateFormulator_updated targetHeight phase addr (Account.address acc) info rt
      split
      · rename_i err rt' failed
        rw [failed] at first
        exact first
      · rename_i rt' passed
        rw [passed] at first
        exact first.trans (ih rt')

theorem updateFormulatorList_updated (targetHeight : UInt32) (top : ContextData Acc Ev)
    (rt : RankTable) :
    Updated (rt.smallestPhase + 2) rt (updateFormulatorList targetHeight top rt) := by
  have first := updateFormulators_updated targetHeight (rt.smallestPhase + 2)
    top.accountMap.eachAll rt
  unfold updateFormulatorList
  split
  · rename_i err rt' failed
    rw [failed] at first
    exact first
  · rename_i rt' passed
    rw [passed] at first
    have rest := first.trans (removeAll_updated (rt.smallestPhase + 2)
      (top.deletedAccountMap.eachAll.filterMap fun entry =>
        (FormulatorAccount.formulator entry.2).map fun _ => Account.address entry.2) rt')
    dsimp only
    split
    · exact ⟨rest.height, rest.steps, fun failed => by cases failed⟩
    · exact rest

end Consensus

namespace RankTable

def Window (ranks : List Rank) : Prop :=
  ∀ r ∈ ranks, ∀ s ∈ ranks, r.phase.toNat ≤ s.phase.toNat + 2

theorem toNat_raise {phase step : UInt32} (room : phase.toNat + step.toNat < 2 ^ 32) :
    (phase + step).toNat = phase.toNat + step.toNat := by
  rw [UInt32.toNat_add, Nat.mod_eq_of_lt room]

variable {rest : List Rank}

theorem Window.reinsert {top s : Rank} (window : Window (top :: rest))
    (ordered : Ordered (top :: rest)) (above : top.phase.toNat ≤ s.phase.toNat)
    (within : s.phase.toNat ≤ top.phase.toNat + 2) : Window (insertRankToList rest s) := by
  have low := ordered.head_phase_le
  have near : ∀ r ∈ insertRankToList rest s,
      top.phase.toNat ≤ r.phase.toNat ∧ r.phase.toNat ≤ top.phase.toNat + 2 := by
    intro r listed
    rcases mem_insertRankToList.mp listed with rfl | before
    · exact ⟨above, within⟩
    · have member : r ∈ top :: rest := mem_cons_of_mem _ before
      exact ⟨low r member, window r member top mem_cons_self⟩
  intro r listed s' listed'
  have first := near r listed
  have second := near s' listed'
  omega

variable {rt : RankTable}

theorem smallestPhase_le (ordered : Ordered rt.candidates) :
    ∀ r ∈ rt.candidates, rt.smallestPhase.toNat ≤ r.phase.toNat := by
  obtain ⟨height, ranks⟩ := rt
  cases ranks with
  | nil => simp
  | cons top rest => exact ordered.head_phase_le

theorem Window.le_smallestPhase (window : Window rt.candidates) :
    ∀ r ∈ rt.candidates, r.phase.toNat ≤ rt.smallestPhase.toNat + 2 := by
  obtain ⟨height, ranks⟩ := rt
  cases ranks with
  | nil => simp
  | cons top rest => exact fun r listed => window r listed top mem_cons_self

theorem Window.update {ranks' : List Rank} (window : Window rt.candidates)
    (ordered : Ordered rt.candidates) (room : rt.smallestPhase.toNat + 2 < 2 ^ 32)
    (steps : Updates (rt.smallestPhase + 2) rt.candidates ranks') :
    Window ranks' ∧ ∀ r ∈ ranks', r.phase.toNat ≤ (rt.smallestPhase + 2).toNat := by
  have raised : (rt.smallestPhase + 2).toNat = rt.smallestPhase.toNat + 2 := toNat_raise room
  have near : ∀ r ∈ ranks', rt.smallestPhase.toNat ≤ r.phase.toNat ∧
      r.phase.toNat ≤ rt.smallestPhase.toNat + 2 := by
    apply steps.forall_phase fun phase =>
      rt.smallestPhase.toNat ≤ phase.toNat ∧ phase.toNat ≤ rt.smallestPhase.toNat + 2
    · rw [raised]
      omega
    · intro r listed
      exact ⟨smallestPhase_le ordered r listed, window.le_smallestPhase r listed⟩
  constructor
  · intro r listed s listed'
    have first := near r listed
    have second := near s listed'
    omega
  · intro r listed
    rw [raised]
    exact (near r listed).2

variable {ranks : List Rank}

theorem forwardCandidate_ordered (ordered : Ordered ranks) : Ordered (forwardCandidate ranks) := by
  cases ranks with
  | nil => exact ordered
  | cons top rest => exact ordered.reinsert rfl

theorem forwardCandidate_iterate_ordered (ordered : Ordered ranks)
    (moves : Nat) : Ordered (forwardCandidate^[moves] ranks) := by
  induction moves with
  | zero => exact ordered
  | succ moves ih =>
    rw [Function.iterate_succ_apply']
    exact forwardCandidate_ordered ih

theorem length_forwardCandidate (ranks : List Rank) :
    (forwardCandidate ranks).length = ranks.length := by
  cases ranks with
  | nil => rfl
  | cons top rest => rw [forwardCandidate, length_insertRankToList, length_cons]

theorem length_forwardCandidate_iterate (ranks : List Rank) (moves : Nat) :
    (forwardCandidate^[moves] ranks).length = ranks.length := by
  induction moves with
  | zero => rfl
  | succ moves ih => rw [Function.iterate_succ_apply', length_forwardCandidate, ih]

def highPhases (ranks : List Rank) : Nat := ranks.countP fun r => decide (2 ^ 32 ≤ r.phase.toNat + 2)

/-- While some candidate can be raised by two, the first one can. -/
theorem head_room {top : Rank} (ordered : Ordered (top :: rest))
    (few : highPhases (top :: rest) < (top :: rest).length) : top.phase.toNat + 2 < 2 ^ 32 := by
  by_contra high
  have all : highPhases (top :: rest) = (top :: rest).length := by
    rw [highPhases, countP_eq_length]
    intro r listed
    have above := ordered.head_phase_le r listed
    rw [decide_eq_true_eq]
    omega
  omega

theorem highPhases_reinsert_le (top s : Rank) (rest : List Rank) :
    highPhases (insertRankToList rest s) ≤ highPhases (top :: rest) + 1 := by
  rw [highPhases, (insertRankToList_perm rest s).countP_eq, highPhases, countP_cons, countP_cons]
  split <;> split <;> omega

structure Sound (ranks : List Rank) : Prop where
  ordered : Ordered ranks
  window : Window ranks

def Low (ranks : List Rank) : Prop := ∀ r ∈ ranks, r.phase.toNat < 2 ^ 32 - 2

theorem highPhases_low (low : Low ranks) : highPhases ranks = 0 := by
  rw [highPhases, countP_eq_zero]
  intro r listed
  have small := low r listed
  rw [decide_eq_true_eq]
  omega

theorem Sound.forwardCandidate (sound : Sound ranks) (few : highPhases ranks < ranks.length) :
    Sound (forwardCandidate ranks) ∧
      highPhases (RankTable.forwardCandidate ranks) ≤ highPhases ranks + 1 := by
  cases ranks with
  | nil => exact absurd few (by simp [highPhases])
  | cons top rest =>
    have room := head_room sound.ordered few
    have raised : (top.phase + 2).toNat = top.phase.toNat + 2 := toNat_raise room
    refine ⟨⟨forwardCandidate_ordered sound.ordered, ?_⟩, highPhases_reinsert_le top _ rest⟩
    apply sound.window.reinsert sound.ordered
    · change top.phase.toNat ≤ (top.phase + 2).toNat
      omega
    · change (top.phase + 2).toNat ≤ top.phase.toNat + 2
      omega

theorem Sound.forwardTop {rt' : RankTable} {hash : Hash256} (sound : Sound rt.candidates)
    (few : highPhases rt.candidates < rt.candidates.length)
    (forwarded : rt.forwardTop hash = .ok rt') : Sound rt'.candidates := by
  obtain ⟨height, ranks⟩ := rt
  cases ranks with
  | nil => cases forwarded
  | cons top rest =>
    have room := head_room sound.ordered few
    have raised : (top.phase + 1).toNat = top.phase.toNat + 1 := toNat_raise (Nat.lt_of_succ_lt room)
    cases forwarded
    refine ⟨sound.ordered.reinsert rfl, sound.window.reinsert sound.ordered ?_ ?_⟩
    · change top.phase.toNat ≤ (top.phase + 1).toNat
      omega
    · change (top.phase + 1).toNat ≤ top.phase.toNat + 2
      omega

theorem Sound.update {out : Except Err Unit × RankTable}
    (sound : Sound rt.candidates) (room : rt.smallestPhase.toNat < 2 ^ 32 - 2)
    (updated : Updated (rt.smallestPhase + 2) rt out) :
    Sound out.2.candidates ∧ out.1 ≠ .error .invalidPhase := by
  obtain ⟨window, high⟩ := sound.window.update sound.ordered (by omega) updated.steps
  refine ⟨⟨updated.steps.ordered sound.ordered, window⟩, fun failed => ?_⟩
  obtain ⟨some, below⟩ := updated.invalid failed
  obtain ⟨top, rest, candidates⟩ := exists_cons_of_ne_nil some
  have first := high top (by rw [candidates]; exact mem_cons_self)
  have head : out.2.smallestPhase = top.phase := by rw [smallestPhase, candidates]; rfl
  rw [head] at below
  exact absurd (UInt32.lt_iff_toNat_lt.mp below) (Nat.not_lt.mpr first)

end RankTable

end Fleta.Pof
