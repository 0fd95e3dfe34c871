import Mathlib.Data.Finset.Card

/-!
# One vote per height and majorities

A voter follows a log of some height and votes for values of the next height. It stands
by the last vote until the log has passed it. A voter that keeps this discipline never
votes for two values of one height, and then two values of one height cannot both have
the votes of a majority.
-/

namespace Fleta.Voting

variable {Value Voter : Type}

/-- `voted` are the votes a voter has cast so far, `ballot` is the vote it stands by and
`next` the height its log will have next. -/
structure Disciplined (next : Nat) (voted : Nat → Value → Prop) (ballot : Option (Nat × Value)) :
    Prop where
  bounded : ∀ h x, voted h x → h ≤ next
  single : ∀ h x y, voted h x → voted h y → x = y
  stands : ∀ h x, ballot = some (h, x) → h ≤ next ∧ ∀ y, voted h y → y = x
  locked : ∀ x, voted (next) x → ∃ y, ballot = some (next, y)

namespace Disciplined

variable {next : Nat} {voted : Nat → Value → Prop} {ballot : Option (Nat × Value)}

theorem fresh (next : Nat) : Disciplined next (fun _ (_ : Value) => False) none where
  bounded _ _ vote := vote.elim
  single _ _ _ vote := vote.elim
  stands _ _ none := nomatch none
  locked _ vote := vote.elim

theorem of_votes {voted' : Nat → Value → Prop} (keeps : Disciplined next voted ballot)
    (fewer : ∀ h x, voted' h x → voted h x) : Disciplined next voted' ballot where
  bounded h x vote := keeps.bounded h x (fewer h x vote)
  single h x y left right := keeps.single h x y (fewer h x left) (fewer h y right)
  stands h x standing :=
    ⟨(keeps.stands h x standing).1, fun y vote => (keeps.stands h x standing).2 y (fewer h y vote)⟩
  locked x vote := keeps.locked x (fewer _ x vote)

theorem cast (keeps : Disciplined next voted ballot)
    (free : ∀ y, ballot ≠ some (next, y)) (x : Value) :
    Disciplined next (fun h y => voted h y ∨ h = next ∧ y = x) (some (next, x)) := by
  have unvoted : ∀ y, ¬voted (next) y := by
    intro y vote
    obtain ⟨z, standing⟩ := keeps.locked y vote
    exact free z standing
  constructor
  · rintro h y (vote | ⟨rfl, _⟩)
    · exact keeps.bounded h y vote
    · exact Nat.le_refl _
  · rintro h y z (left | ⟨rfl, rfl⟩) (right | ⟨same, rfl⟩)
    · exact keeps.single h y z left right
    · exact absurd (same ▸ left) (unvoted y)
    · exact absurd right (unvoted z)
    · rfl
  · intro h y standing
    cases standing
    refine ⟨Nat.le_refl _, ?_⟩
    rintro z (vote | ⟨_, rfl⟩)
    · exact absurd vote (unvoted z)
    · rfl
  · intro y _
    exact ⟨x, rfl⟩

theorem recast {h : Nat} {x : Value} (keeps : Disciplined next voted (some (h, x))) :
    Disciplined next (fun i y => voted i y ∨ i = h ∧ y = x) (some (h, x)) := by
  obtain ⟨low, unique⟩ := keeps.stands h x rfl
  constructor
  · rintro i y (vote | ⟨rfl, _⟩)
    · exact keeps.bounded i y vote
    · exact low
  · rintro i y z (left | ⟨rfl, rfl⟩) (right | ⟨same, rfl⟩)
    · exact keeps.single i y z left right
    · exact unique y (same ▸ left)
    · exact (unique z right).symm
    · rfl
  · intro i y standing
    cases standing
    refine ⟨low, ?_⟩
    rintro z (vote | ⟨_, rfl⟩)
    · exact unique z vote
    · rfl
  · rintro y (vote | ⟨rfl, _⟩)
    · exact keeps.locked y vote
    · exact ⟨x, rfl⟩

theorem release (keeps : Disciplined next voted ballot)
    (passed : ∀ y, ballot ≠ some (next, y)) : Disciplined next voted none where
  bounded := keeps.bounded
  single := keeps.single
  stands _ _ none := nomatch none
  locked x vote := by
    obtain ⟨y, standing⟩ := keeps.locked x vote
    exact absurd standing (passed y)

theorem advance (keeps : Disciplined next voted ballot) {taller : Nat} (grows : next ≤ taller) :
    Disciplined taller voted ballot where
  bounded h x vote := by
    have low := keeps.bounded h x vote
    omega
  single := keeps.single
  stands h x standing := by
    obtain ⟨low, unique⟩ := keeps.stands h x standing
    exact ⟨by omega, unique⟩
  locked x vote := by
    have low := keeps.bounded _ x vote
    have same : taller = next := by omega
    subst same
    exact keeps.locked x vote

end Disciplined

structure Majority (members : List Voter) (voters : List Voter) : Prop where
  nodup : voters.Nodup
  within : ∀ voter ∈ voters, voter ∈ members
  large : members.length / 2 + 1 ≤ voters.length

namespace Majority

variable {members left right : List Voter}

theorem intersect (first : Majority members left) (second : Majority members right) :
    ∃ voter, voter ∈ left ∧ voter ∈ right := by
  classical
  have overlap : (left.toFinset ∩ right.toFinset).Nonempty := by
    refine Finset.inter_nonempty_of_card_lt_card_add_card (s := members.toFinset) ?_ ?_ ?_
    · exact fun voter => by simpa using first.within voter
    · exact fun voter => by simpa using second.within voter
    · rw [List.toFinset_card_of_nodup first.nodup, List.toFinset_card_of_nodup second.nodup]
      have count := List.toFinset_card_le members
      have leftLarge := first.large
      have rightLarge := second.large
      omega
  obtain ⟨voter, both⟩ := overlap
  rw [Finset.mem_inter, List.mem_toFinset, List.mem_toFinset] at both
  exact ⟨voter, both⟩

theorem nonempty (first : Majority members left) : ∃ voter, voter ∈ left ∧ voter ∈ members := by
  have large := first.large
  cases left with
  | nil => simp at large
  | cons voter rest => exact ⟨voter, by simp, first.within voter (by simp)⟩

end Majority

/-- Every voter of a majority has voted for the value. -/
def Elected (members : List Voter) (voted : Voter → Nat → Value → Prop) (h : Nat) (x : Value) :
    Prop :=
  ∃ voters, Majority members voters ∧ ∀ voter ∈ voters, voted voter h x

/-- Among disciplined voters at most one value of a height is elected. -/
theorem elected_unique {members : List Voter} {voted : Voter → Nat → Value → Prop}
    (single : ∀ voter ∈ members, ∀ h x y, voted voter h x → voted voter h y → x = y)
    {h : Nat} {x y : Value} (left : Elected members voted h x) (right : Elected members voted h y) :
    x = y := by
  obtain ⟨first, firstMajority, firstVotes⟩ := left
  obtain ⟨second, secondMajority, secondVotes⟩ := right
  obtain ⟨voter, inFirst, inSecond⟩ := firstMajority.intersect secondMajority
  exact single voter (firstMajority.within voter inFirst) h x y (firstVotes voter inFirst)
    (secondVotes voter inSecond)

end Fleta.Voting
