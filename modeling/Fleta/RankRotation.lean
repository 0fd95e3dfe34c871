import Fleta.RankOrder
import Mathlib.Algebra.Group.Action.Defs
import Mathlib.Algebra.Order.BigOperators.Group.List
import Mathlib.Tactic.Ring

/-!
# The rotation of the turns

Every end of a turn raises the phase of the first candidate by one and puts it back in
order. While no phase wraps, the phase of a candidate counts its turns, and since the first
one has the smallest phase, no candidate gets more than one turn ahead of another.
-/

namespace Fleta.Pof

open List

namespace RankTable

def forwardTops : List Hash256 → RankTable → Except Err (List Address × RankTable)
  | [], rt => .ok ([], rt)
  | hash :: hashes, rt =>
    match rt.topRank 0 with
    | .error err => .error err
    | .ok top =>
      match rt.forwardTop hash with
      | .error err => .error err
      | .ok rt =>
        match forwardTops hashes rt with
        | .error err => .error err
        | .ok (moved, rt) => .ok (top.address :: moved, rt)

def phaseSum (ranks : List Rank) : Nat := (ranks.map fun r => r.phase.toNat).sum

theorem phaseSum_insert (ranks : List Rank) (s : Rank) :
    phaseSum (insertRankToList ranks s) = s.phase.toNat + phaseSum ranks := by
  rw [phaseSum, ((insertRankToList_perm ranks s).map _).sum_eq, map_cons, sum_cons]
  rfl

variable {top : Rank} {rest : List Rank}

theorem head_phase_lt (ordered : Ordered (top :: rest))
    (below : phaseSum (top :: rest) < (top :: rest).length * (2 ^ 32 - 1)) :
    top.phase.toNat + 1 < 2 ^ 32 := by
  by_contra high
  have all : ∀ phase ∈ (top :: rest).map (fun r => r.phase.toNat), 2 ^ 32 - 1 ≤ phase := by
    intro phase listed
    obtain ⟨r, member, rfl⟩ := mem_map.mp listed
    have above := ordered.head_phase_le r member
    omega
  have sum := card_nsmul_le_sum _ _ all
  rw [length_map, smul_eq_mul] at sum
  rw [phaseSum] at below
  omega

/-- The turns had so far, counted with the phases, differ by one at most. -/
def Even (ranks : List Rank) (moved : List Address) : Prop :=
  ∀ r ∈ ranks, ∀ s ∈ ranks,
    r.phase.toNat + moved.count r.address ≤ s.phase.toNat + moved.count s.address + 1

section

variable (ordered : Ordered (top :: rest))

include ordered

theorem Even.cons {moved : List Address} {hash : Hash256} (raised : (top.phase + 1).toNat = top.phase.toNat + 1)
    (even : Even (insertRankToList rest { top with phase := top.phase + 1, hashSpace := hash }) moved) :
    Even (top :: rest) (top.address :: moved) := by
  have fresh := (nodup_cons.mp ordered.distinct).1
  -- Every candidate is in the new list with one turn less ahead of it.
  have counted : ∀ r ∈ top :: rest, ∃ s ∈ insertRankToList rest
      { top with phase := top.phase + 1, hashSpace := hash },
      r.phase.toNat + (top.address :: moved).count r.address =
        s.phase.toNat + moved.count s.address := by
    intro r listed
    rcases mem_cons.mp listed with rfl | later
    · refine ⟨_, mem_insertRankToList.mpr (.inl rfl), ?_⟩
      rw [count_cons_self]
      dsimp only
      omega
    · refine ⟨r, mem_insertRankToList.mpr (.inr later), ?_⟩
      have apart : top.address ≠ r.address := fun same => fresh (same ▸ mem_map_of_mem later)
      rw [count_cons_of_ne apart]
  intro r listed s listed'
  obtain ⟨r', member, count⟩ := counted r listed
  obtain ⟨s', member', count'⟩ := counted s listed'
  rw [count, count']
  exact even r' member s' member'

theorem Even.single (near : Even (top :: rest) []) : Even (top :: rest) [top.address] := by
  have fresh := (nodup_cons.mp ordered.distinct).1
  have low := ordered.head_phase_le
  have count : ∀ r ∈ rest, [top.address].count r.address = 0 := by
    intro r later
    rw [count_eq_zero]
    intro listed
    rw [← mem_singleton.mp listed] at fresh
    exact fresh (mem_map_of_mem later)
  intro r listed s listed'
  have close := near r listed s listed'
  have above := low s listed'
  rw [count_nil, count_nil] at close
  rcases mem_cons.mp listed with rfl | later
  · rw [count_singleton_self]
    omega
  · rw [count r later]
    omega

theorem Even.reinsert {s : Rank}
    (near : Even (top :: rest) []) (raised : s.phase.toNat = top.phase.toNat + 1) :
    Even (insertRankToList rest s) [] := by
  have low := ordered.head_phase_le
  have close : ∀ r ∈ insertRankToList rest s,
      top.phase.toNat ≤ r.phase.toNat ∧ r.phase.toNat ≤ top.phase.toNat + 1 := by
    intro r listed
    rcases mem_insertRankToList.mp listed with rfl | later
    · omega
    · have member : r ∈ top :: rest := mem_cons_of_mem _ later
      exact ⟨low r member, near r member top mem_cons_self⟩
  intro r listed r' listed'
  have first := close r listed
  have second := close r' listed'
  rw [count_nil, count_nil]
  omega

end

/-- The calls succeed, they move candidates of the table, and the turns are even. The phases
leave room for all turns but the last one. -/
theorem forwardTops_even (hashes : List Hash256) {rt : RankTable} (some : rt.candidates ≠ [])
    (ordered : Ordered rt.candidates) (near : Even rt.candidates [])
    (room : phaseSum rt.candidates + hashes.length ≤ rt.candidates.length * (2 ^ 32 - 1) + 1) :
    ∃ moved rt', forwardTops hashes rt = .ok (moved, rt') ∧ moved.length = hashes.length ∧
      (∀ addr ∈ moved, addr ∈ rt.candidates.map Rank.address) ∧ Even rt.candidates moved := by
  induction hashes generalizing rt with
  | nil =>
    refine ⟨[], rt, rfl, rfl, ?_, near⟩
    intro addr listed
    cases listed
  | cons hash hashes ih =>
    obtain ⟨height, ranks⟩ := rt
    obtain ⟨top, rest, rfl⟩ := exists_cons_of_ne_nil some
    let raised : Rank := { top with phase := top.phase + 1, hashSpace := hash }
    let next : RankTable := ⟨height + 1, insertRankToList rest raised⟩
    have called : forwardTops (hash :: hashes) ⟨height, top :: rest⟩ =
        match forwardTops hashes next with
        | .error err => .error err
        | .ok (moved, rt) => .ok (top.address :: moved, rt) := rfl
    cases hashes with
    | nil =>
      refine ⟨[top.address], next, called, rfl, ?_, .single ordered near⟩
      intro addr listed
      rw [mem_singleton.mp listed]
      exact mem_cons_self
    | cons hash' hashes =>
      dsimp only [length_cons] at room
      have below : top.phase.toNat + 1 < 2 ^ 32 := by
        apply head_phase_lt ordered
        dsimp only [length_cons]
        omega
      have phase : (top.phase + 1).toNat = top.phase.toNat + 1 := toNat_raise below
      have sum : phaseSum next.candidates = phaseSum (top :: rest) + 1 := by
        rw [phaseSum_insert]
        change (top.phase + 1).toNat + phaseSum rest = top.phase.toNat + phaseSum rest + 1
        omega
      have length : next.candidates.length = rest.length + 1 := length_insertRankToList rest raised
      obtain ⟨moved, rt', run, count, known, even⟩ := @ih next
        (by rw [← length_pos_iff, length]; omega) (ordered.reinsert rfl)
        (Even.reinsert ordered near phase) (by
          rw [sum, length, length_cons]
          omega)
      refine ⟨top.address :: moved, rt', ?_, ?_, ?_, .cons ordered phase even⟩
      · rw [called, run]
      · rw [length_cons, count, length_cons (a := hash)]
      · intro addr listed
        rcases mem_cons.mp listed with rfl | later
        · exact mem_cons_self
        · obtain ⟨r, member, rfl⟩ := mem_map.mp (known addr later)
          rcases mem_insertRankToList.mp member with rfl | before
          · exact mem_cons_self
          · exact mem_map_of_mem (mem_cons_of_mem _ before)

end RankTable

theorem sum_indicator {α : Type} [DecidableEq α] (values : List α) (a : α) :
    (values.map fun b => if a == b then 1 else 0).sum = values.count a := by
  induction values with
  | nil => rfl
  | cons b values ih =>
    rw [map_cons, sum_cons, ih, count_cons, Nat.add_comm, Bool.beq_comm]

theorem sum_count_eq_length {α : Type} [DecidableEq α] {values moved : List α}
    (distinct : values.Nodup) (known : ∀ a ∈ moved, a ∈ values) :
    (values.map fun a => moved.count a).sum = moved.length := by
  induction moved with
  | nil => simp
  | cons a moved ih =>
    have later := ih fun b listed => known b (mem_cons_of_mem _ listed)
    have once : values.count a = 1 := count_eq_one_of_mem distinct (known a mem_cons_self)
    simp only [count_cons]
    rw [sum_map_add, later, sum_indicator, once, length_cons]

theorem eq_mean_of_near {counts : List Nat} (near : ∀ x ∈ counts, ∀ y ∈ counts, x ≤ y + 1)
    {x : Nat} (listed : x ∈ counts) :
    x = counts.sum / counts.length ∨
      x = (counts.sum + counts.length - 1) / counts.length := by
  have perm := perm_cons_erase listed
  have member : ∀ y ∈ counts.erase x, y ∈ counts := fun y later => mem_of_mem_erase later
  have bound := fun (low high : Nat) (all : ∀ y ∈ counts, low ≤ y ∧ y ≤ high) =>
    And.intro (card_nsmul_le_sum (counts.erase x) low fun y later => (all y (member y later)).1)
      (sum_le_card_nsmul (counts.erase x) high fun y later => (all y (member y later)).2)
  rw [perm.sum_eq, sum_cons, perm.length_eq, length_cons]
  generalize (counts.erase x).sum = others at bound
  generalize (counts.erase x).length = size at bound
  by_cases least : ∀ y ∈ counts, x ≤ y
  · left
    obtain ⟨low, high⟩ := bound x (x + 1) fun y other => ⟨least y other, near y other x listed⟩
    rw [smul_eq_mul] at low high
    rw [Nat.mul_add, Nat.mul_one] at high
    have times : x * (size + 1) = size * x + x := by ring
    symm
    rw [Nat.div_eq_iff (by omega), times]
    omega
  · right
    push Not at least
    obtain ⟨y, other, below⟩ := least
    obtain ⟨less, rfl⟩ : ∃ less, x = less + 1 := ⟨x - 1, by omega⟩
    obtain ⟨low, high⟩ := bound less (less + 1) fun z another => by
      have first := near z another y other
      have second := near (less + 1) listed z another
      omega
    rw [smul_eq_mul] at low high
    rw [Nat.mul_add, Nat.mul_one] at high
    have times : (less + 1) * (size + 1) = size * less + size + (less + 1) := by ring
    symm
    rw [Nat.div_eq_iff (by omega), times]
    omega

namespace RankTable

def Fair (ranks : List Rank) (turns : Nat) (moved : List Address) : Prop :=
  ∀ r ∈ ranks, moved.count r.address = turns / ranks.length ∨
    moved.count r.address = (turns + ranks.length - 1) / ranks.length

theorem Even.fair {ranks : List Rank} {moved : List Address} {phase : UInt32}
    (even : Even ranks moved) (ordered : Ordered ranks) (level : ∀ r ∈ ranks, r.phase = phase)
    (known : ∀ addr ∈ moved, addr ∈ ranks.map Rank.address) : Fair ranks moved.length moved := by
  intro r listed
  have near : ∀ x ∈ ranks.map (fun r => moved.count r.address),
      ∀ y ∈ ranks.map (fun r => moved.count r.address), x ≤ y + 1 := by
    intro x member y member'
    obtain ⟨r, listed, rfl⟩ := mem_map.mp member
    obtain ⟨s, listed', rfl⟩ := mem_map.mp member'
    have close := even r listed s listed'
    rw [level r listed, level s listed'] at close
    omega
  have sum := sum_count_eq_length ordered.distinct known
  rw [map_map] at sum
  have mean := eq_mean_of_near near (mem_map_of_mem listed)
  rw [length_map] at mean
  change (ranks.map fun r => moved.count r.address).sum = _ at sum
  rwa [sum] at mean

theorem forwardTops_single (hashes : List Hash256) (height : UInt32) (top : Rank) :
    ∃ rt', forwardTops hashes ⟨height, [top]⟩ =
      .ok (replicate hashes.length top.address, rt') := by
  induction hashes generalizing height top with
  | nil => exact ⟨_, rfl⟩
  | cons hash hashes ih =>
    obtain ⟨rt', run⟩ := ih (height + 1) { top with phase := top.phase + 1, hashSpace := hash }
    refine ⟨rt', ?_⟩
    have called : forwardTops (hash :: hashes) ⟨height, [top]⟩ =
        match forwardTops hashes
          ⟨height + 1, [{ top with phase := top.phase + 1, hashSpace := hash }]⟩ with
        | .error err => .error err
        | .ok (moved, rt) => .ok (top.address :: moved, rt) := rfl
    rw [called, run]
    rfl

/-- Candidates in order that start with one phase have fair turns while the phases have room,
and a single candidate always has. -/
theorem forwardTops_fair (rt : RankTable) (phase : UInt32) (hashes : List Hash256)
    (some : 1 ≤ rt.candidates.length) (ordered : Ordered rt.candidates)
    (level : ∀ r ∈ rt.candidates, r.phase = phase)
    (room : rt.candidates.length = 1 ∨
      hashes.length ≤ rt.candidates.length * (2 ^ 32 - 1 - phase.toNat) + 1) :
    ∃ moved rt', forwardTops hashes rt = .ok (moved, rt') ∧
      Fair rt.candidates hashes.length moved := by
  rcases room with single | room
  · obtain ⟨height, ranks⟩ := rt
    obtain ⟨top, rfl⟩ := length_eq_one_iff.mp single
    obtain ⟨rt', run⟩ := forwardTops_single hashes height top
    refine ⟨_, rt', run, ?_⟩
    intro r listed
    left
    rw [mem_singleton.mp listed, count_replicate_self, length_singleton, Nat.div_one]
  · have near : Even rt.candidates [] := by
      intro r listed s listed'
      rw [level r listed, level s listed']
      exact Nat.le_succ _
    have sum : phaseSum rt.candidates = rt.candidates.length * phase.toNat := by
      have all : rt.candidates.map (fun r => r.phase.toNat) =
          replicate rt.candidates.length phase.toNat := by
        rw [eq_replicate_iff, length_map]
        refine ⟨rfl, fun value listed => ?_⟩
        obtain ⟨r, member, rfl⟩ := mem_map.mp listed
        rw [level r member]
      rw [phaseSum, all, sum_replicate, smul_eq_mul]
    have high := phase.toNat_lt
    have whole : rt.candidates.length * (2 ^ 32 - 1 - phase.toNat) +
        rt.candidates.length * phase.toNat = rt.candidates.length * (2 ^ 32 - 1) := by
      rw [← Nat.mul_add, Nat.sub_add_cancel (by omega)]
    obtain ⟨moved, rt', run, count, known, even⟩ := forwardTops_even hashes
      (ne_nil_of_length_pos some) ordered near (by rw [sum]; omega)
    exact ⟨moved, rt', run, count ▸ even.fair ordered level known⟩

/-- Two candidates with the phase 2, and three turns. -/
theorem forwardTops_three :
    ∃ moved rt', forwardTops [[0, 0, 0, 0], [0, 0, 0, 0], [0, 0, 0, 0]]
        ⟨0, [⟨.new 0 1 0, [], 2, [0, 0, 0, 0]⟩, ⟨.new 0 2 0, [], 2, [0, 0, 0, 0]⟩]⟩ =
          .ok (moved, rt') ∧
      Fair [⟨.new 0 1 0, [], 2, [0, 0, 0, 0]⟩, ⟨.new 0 2 0, [], 2, [0, 0, 0, 0]⟩] 3 moved :=
  forwardTops_fair _ 2 _ (by decide) ⟨by decide +kernel, by decide +kernel⟩ (by decide)
    (.inr (by decide))

/-- With the last phase, the first candidate wraps to the phase zero and has the next turn
too. -/
theorem forwardTops_wrapped :
    ∃ rt : RankTable, 1 ≤ rt.candidates.length ∧ Ordered rt.candidates ∧
      (∀ r ∈ rt.candidates, r.phase = 4294967295) ∧
      ∃ hashes moved rt', forwardTops hashes rt = .ok (moved, rt') ∧
        ¬Fair rt.candidates hashes.length moved := by
  refine ⟨⟨0, [⟨.new 0 1 0, [], 4294967295, [0, 0, 0, 0]⟩,
    ⟨.new 0 2 0, [], 4294967295, [0, 0, 0, 0]⟩]⟩, by decide, ⟨by decide +kernel, by decide +kernel⟩,
    by decide, [[0, 0, 0, 0], [0, 0, 0, 0]], [.new 0 1 0, .new 0 1 0], _, rfl, ?_⟩
  unfold Fair
  decide +kernel

end RankTable

end Fleta.Pof
