import Mathlib.Data.List.GetD
import Mathlib.Tactic.Common

/-!
# Insertion into a sorted list by binary search

The search finds the place where a monotone test turns true. A value inserted at the place
found in a sorted list leaves the list sorted, whatever strict order sorts it, as long as it
can be compared with every value of the list.
-/

namespace Fleta

open List

def searchLoop (f : Nat → Bool) : Nat → Nat → Nat → Nat
  | 0, i, _ => i
  | fuel + 1, i, j =>
    if i < j then
      let h := (i + j) / 2
      if f h then searchLoop f fuel i h else searchLoop f fuel (h + 1) j
    else i

/-- `sort.Search`. Every round makes the interval shorter, so that `n` rounds are enough. -/
def sortSearch (n : Nat) (f : Nat → Bool) : Nat := searchLoop f n 0 n

/-- The test turns from false to true at `idx`. -/
structure TurnsAt (f : Nat → Bool) (n idx : Nat) : Prop where
  within : idx ≤ n
  before : ∀ i, i < idx → f i = false
  after : ∀ i, idx ≤ i → i < n → f i = true

section Search

variable {f : Nat → Bool} {n : Nat}

theorem searchLoop_turnsAt (mono : ∀ i j, i ≤ j → j < n → f i = true → f j = true)
    (fuel i j : Nat) (room : j - i ≤ fuel) (ordered : i ≤ j) (inside : j ≤ n)
    (before : ∀ k, k < i → f k = false) (after : ∀ k, j ≤ k → k < n → f k = true) :
    TurnsAt f n (searchLoop f fuel i j) := by
  induction fuel generalizing i j with
  | zero =>
    have met : i = j := by omega
    subst met
    exact ⟨inside, before, after⟩
  | succ fuel ih =>
    rw [searchLoop]
    by_cases active : i < j
    · rw [if_pos active]
      have lower : i ≤ (i + j) / 2 := by omega
      have upper : (i + j) / 2 < j := by omega
      generalize (i + j) / 2 = h at lower upper
      by_cases turned : f h = true
      · rw [if_pos turned]
        apply ih i h (by omega) lower (by omega) before
        intro k beyond small
        exact mono h k beyond small turned
      · rw [if_neg turned]
        apply ih (h + 1) j (by omega) (by omega) inside
        · intro k early
          by_contra late
          rw [Bool.not_eq_false] at late
          exact turned (mono k h (by omega) (by omega) late)
        · exact after
    · rw [if_neg active]
      have met : i = j := by omega
      subst met
      exact ⟨inside, before, after⟩

theorem sortSearch_turnsAt (mono : ∀ i j, i ≤ j → j < n → f i = true → f j = true) :
    TurnsAt f n (sortSearch n f) := by
  apply searchLoop_turnsAt mono n 0 n (by omega) (by omega) (Nat.le_refl n)
  · intro k early
    omega
  · intro k late small
    omega

end Search

variable {α : Type} (less : α → α → Bool)

/-- The value is inserted where it becomes less than what follows. -/
def sortedInsert (xs : List α) (x : α) : List α :=
  let idx := sortSearch xs.length fun i => less x (xs.getD i x)
  xs.take idx ++ x :: xs.drop idx

theorem sortedInsert_perm (xs : List α) (x : α) : (sortedInsert less xs x).Perm (x :: xs) := by
  generalize sortSearch xs.length _ = idx
  refine perm_middle.trans ?_
  rw [take_append_drop]

variable {xs : List α}

@[simp] theorem mem_sortedInsert {x y : α} : y ∈ sortedInsert less xs x ↔ y = x ∨ y ∈ xs := by
  rw [(sortedInsert_perm less xs x).mem_iff, mem_cons]

@[simp] theorem length_sortedInsert (xs : List α) (x : α) :
    (sortedInsert less xs x).length = xs.length + 1 := by
  rw [(sortedInsert_perm less xs x).length_eq, length_cons]

variable {less}

theorem sortSearch_place (trans : ∀ a b c, less a b = true → less b c = true → less a c = true) (sorted : xs.Pairwise fun a b => less a b = true) (x : α) :
    TurnsAt (fun i => less x (xs.getD i x)) xs.length
      (sortSearch xs.length fun i => less x (xs.getD i x)) := by
  apply sortSearch_turnsAt
  intro i j ordered small turned
  rcases Nat.lt_or_eq_of_le ordered with earlier | same
  · have pair := pairwise_iff_getElem.mp sorted i j (by omega) small earlier
    rw [getD_eq_getElem _ _ (by omega)] at turned
    rw [getD_eq_getElem _ _ small]
    exact trans _ _ _ turned pair
  · rwa [← same]

theorem sortedInsert_sorted (trans : ∀ a b c, less a b = true → less b c = true → less a c = true) (sorted : xs.Pairwise fun a b => less a b = true) {x : α}
    (comparable : ∀ y ∈ xs, less x y = true ∨ less y x = true) :
    (sortedInsert less xs x).Pairwise fun a b => less a b = true := by
  have place := sortSearch_place trans sorted x
  unfold sortedInsert
  generalize sortSearch xs.length _ = idx at place
  have below : ∀ y ∈ xs.take idx, less y x = true := by
    intro y listed
    obtain ⟨i, small, rfl⟩ := getElem_of_mem listed
    rw [length_take] at small
    have early := place.before i (by omega)
    rw [getElem_take]
    rw [getD_eq_getElem _ _ (by omega)] at early
    rcases comparable xs[i] (getElem_mem _) with less | greater
    · rw [less] at early
      cases early
    · exact greater
  have above : ∀ y ∈ xs.drop idx, less x y = true := by
    intro y listed
    obtain ⟨i, small, rfl⟩ := getElem_of_mem listed
    rw [length_drop] at small
    have late := place.after (idx + i) (by omega) (by omega)
    rw [getElem_drop]
    rwa [getD_eq_getElem _ _ (by omega)] at late
  have both := sorted
  rw [← take_append_drop idx xs, pairwise_append] at both
  rw [pairwise_append, pairwise_cons]
  refine ⟨both.1, ⟨above, both.2.1⟩, ?_⟩
  intro y early z late
  rcases mem_cons.mp late with rfl | later
  · exact below y early
  · exact both.2.2 y early z later

end Fleta
