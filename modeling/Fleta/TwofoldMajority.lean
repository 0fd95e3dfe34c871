import Mathlib.Data.List.Perm.Basic

/-!
# A loop that looks for two majorities at once

Votes have two attributes. The loop visits the votes in some order, counts the values of
each attribute apart, and stops at the first vote both of whose values have been counted
often enough. Where fewer than two quorums of votes are given, each attribute has at most one
value with a quorum; whether the loop finds the two depends on how many votes have both.
-/

namespace Fleta.TwofoldMajority

open List

variable {Vote A B : Type}

theorem countP_add_countP_le (p q : Vote → Bool) (votes : List Vote) :
    votes.countP p + votes.countP q ≤ votes.length + votes.countP fun v => p v && q v := by
  induction votes with
  | nil => exact Nat.le_refl 0
  | cons v rest ih =>
    simp only [countP_cons, length_cons]
    cases p v <;> cases q v <;>
    · simp
      omega

variable [BEq A] [BEq B] (first : Vote → A) (second : Vote → B) (quorum : Nat)

/-- The votes with the given value of the first attribute, with that of the second, and with both. -/
def firstCount (a : A) (votes : List Vote) : Nat := votes.countP fun v => first v == a

def secondCount (b : B) (votes : List Vote) : Nat := votes.countP fun v => second v == b

def bothCount (a : A) (b : B) (votes : List Vote) : Nat :=
  votes.countP fun v => first v == a && second v == b

/-- The votes visited so far, and those to come. -/
def choose : List Vote → List Vote → Option Vote
  | _, [] => none
  | seen, v :: rest =>
    if firstCount first (first v) (v :: seen) ≥ quorum ∧
        secondCount second (second v) (v :: seen) ≥ quorum then some v
    else choose (v :: seen) rest

def outcome (votes : List Vote) : Option (A × B) :=
  (choose first second quorum [] votes).map fun v => (first v, second v)

variable {first second quorum} {a a' : A} {b b' : B} {votes seen rest : List Vote} {v : Vote}

theorem bothCount_le_firstCount : bothCount first second a b votes ≤ firstCount first a votes := by
  apply countP_mono_left
  intro v _ both
  exact (Bool.and_eq_true_iff.mp both).1

theorem bothCount_le_secondCount : bothCount first second a b votes ≤ secondCount second b votes := by
  apply countP_mono_left
  intro v _ both
  exact (Bool.and_eq_true_iff.mp both).2

/-- The vote at which the loop stops has two quorums among all the votes. -/
theorem choose_some (chosen : choose first second quorum seen rest = some v) :
    v ∈ rest ∧ quorum ≤ firstCount first (first v) (rest ++ seen) ∧
      quorum ≤ secondCount second (second v) (rest ++ seen) := by
  induction rest generalizing seen with
  | nil => cases chosen
  | cons w rest ih =>
    rw [choose] at chosen
    split at chosen
    · rename_i reached
      obtain rfl : w = v := Option.some_inj.mp chosen
      have visited : (w :: seen).Sublist (w :: rest ++ seen) :=
        (sublist_append_right rest seen).cons_cons w
      exact ⟨mem_cons_self, Nat.le_trans reached.1 visited.countP_le,
        Nat.le_trans reached.2 visited.countP_le⟩
    · have later := ih chosen
      have same : (rest ++ w :: seen).Perm (w :: rest ++ seen) := perm_middle
      unfold firstCount secondCount at later ⊢
      rw [same.countP_eq, same.countP_eq] at later
      exact ⟨mem_cons_of_mem w later.1, later.2⟩

theorem choose_append (votes : List Vote) :
    choose first second quorum seen (votes ++ rest) =
      (choose first second quorum seen votes).or
        (choose first second quorum (votes.reverse ++ seen) rest) := by
  induction votes generalizing seen with
  | nil => rfl
  | cons w votes ih =>
    rw [cons_append, choose, choose]
    split
    · rfl
    · rw [ih, reverse_cons, append_assoc, singleton_append]

theorem choose_isSome_last (reached : quorum ≤ firstCount first (first v) (rest ++ v :: seen))
    (reached' : quorum ≤ secondCount second (second v) (rest ++ v :: seen)) :
    (choose first second quorum seen (rest ++ [v])).isSome := by
  induction rest generalizing seen with
  | nil =>
    rw [nil_append, choose, if_pos ⟨reached, reached'⟩]
    rfl
  | cons w rest ih =>
    rw [cons_append, choose]
    split
    · rfl
    have same : (rest ++ [v] ++ w :: seen).Perm (w :: (rest ++ [v] ++ seen)) := perm_middle
    rw [append_assoc, append_assoc, singleton_append, singleton_append] at same
    apply ih
    · unfold firstCount at reached ⊢
      rwa [same.countP_eq]
    · unfold secondCount at reached' ⊢
      rwa [same.countP_eq]

theorem outcome_some (decided : outcome first second quorum votes = some (a, b)) :
    quorum ≤ firstCount first a votes ∧ quorum ≤ secondCount second b votes := by
  unfold outcome at decided
  rw [Option.map_eq_some_iff] at decided
  obtain ⟨v, chosen, values⟩ := decided
  obtain ⟨rfl, rfl⟩ := Prod.mk.inj values
  have spec := (choose_some chosen).2
  rwa [append_nil] at spec

def bothLast (first : Vote → A) (second : Vote → B) (a : A) (b : B) (votes : List Vote) : List Vote :=
  (votes.filter fun v => !(first v == a && second v == b)) ++
    votes.filter fun v => first v == a && second v == b

def bothFirst (first : Vote → A) (second : Vote → B) (a : A) (b : B) (votes : List Vote) : List Vote :=
  (votes.filter fun v => first v == a && second v == b) ++
    votes.filter fun v => !(first v == a && second v == b)

theorem bothFirst_perm : (bothFirst first second a b votes).Perm votes :=
  filter_append_perm _ votes

theorem bothLast_perm : (bothLast first second a b votes).Perm votes :=
  perm_append_comm.trans bothFirst_perm

variable [LawfulBEq A] [LawfulBEq B]

omit [BEq B] [LawfulBEq B] in
theorem firstCount_unique (few : votes.length < 2 * quorum) (left : quorum ≤ firstCount first a votes)
    (right : quorum ≤ firstCount first a' votes) : a = a' := by
  by_contra different
  have overlap := countP_add_countP_le (fun v => first v == a) (fun v => first v == a') votes
  have none : votes.countP (fun v => first v == a && first v == a') = 0 := by
    rw [countP_eq_zero]
    intro v _ both
    rw [Bool.and_eq_true, beq_iff_eq, beq_iff_eq] at both
    exact different (both.1.symm.trans both.2)
  unfold firstCount at left right
  omega

omit [BEq A] [LawfulBEq A] in
theorem secondCount_unique (few : votes.length < 2 * quorum)
    (left : quorum ≤ secondCount second b votes) (right : quorum ≤ secondCount second b' votes) :
    b = b' :=
  @firstCount_unique _ _ _ second quorum b b' votes _ few left right

theorem choose_isSome_of_both (reached : quorum ≤ bothCount first second a b (rest ++ seen))
    (before : bothCount first second a b seen < quorum) :
    (choose first second quorum seen rest).isSome := by
  induction rest generalizing seen with
  | nil => exact absurd reached (Nat.not_le.mpr before)
  | cons w rest ih =>
    rw [choose]
    split
    · rfl
    rename_i missed
    apply ih
    · have same : (rest ++ w :: seen).Perm (w :: rest ++ seen) := perm_middle
      unfold bothCount at reached ⊢
      rwa [same.countP_eq]
    · -- the vote that completes the quorum would have been chosen
      by_contra full
      have counted : bothCount first second a b (w :: seen) =
          bothCount first second a b seen + if first w == a && second w == b then 1 else 0 :=
        countP_cons
      have both : (first w == a && second w == b) = true := by
        by_contra other
        rw [if_neg other] at counted
        omega
      rw [Bool.and_eq_true, beq_iff_eq, beq_iff_eq] at both
      obtain ⟨rfl, rfl⟩ := both
      exact missed ⟨Nat.le_trans (Nat.not_lt.mp full) bothCount_le_firstCount,
        Nat.le_trans (Nat.not_lt.mp full) bothCount_le_secondCount⟩

/-- Every order decides alike if the two majorities, where there are two, share a quorum. -/
theorem outcome_perm {other : List Vote} (same : other.Perm votes) (few : votes.length < 2 * quorum)
    (shared : ∀ a b, quorum ≤ firstCount first a votes → quorum ≤ secondCount second b votes →
      quorum ≤ bothCount first second a b votes)
    (decided : outcome first second quorum votes = some (a, b)) :
    outcome first second quorum other = some (a, b) := by
  have reached := outcome_some decided
  have positive : 0 < quorum := by omega
  have found : (choose first second quorum [] other).isSome := by
    apply choose_isSome_of_both (a := a) (b := b) _ positive
    have both := shared a b reached.1 reached.2
    unfold bothCount at both ⊢
    rwa [append_nil, same.countP_eq]
  obtain ⟨v, chosen⟩ := Option.isSome_iff_exists.mp found
  have decided' : outcome first second quorum other = some (first v, second v) := by
    rw [outcome, chosen, Option.map_some]
  have reached' := outcome_some decided'
  unfold firstCount secondCount at reached'
  rw [same.countP_eq, same.countP_eq] at reached'
  rw [decided', firstCount_unique few reached.1 reached'.1, secondCount_unique few reached.2 reached'.2]

variable (few : votes.length < 2 * quorum) (left : quorum ≤ firstCount first a votes)
  (right : quorum ≤ secondCount second b votes)

include few left right

omit [LawfulBEq A] [LawfulBEq B] in
theorem bothCount_pos : 0 < bothCount first second a b votes := by
  have overlap := countP_add_countP_le (fun v => first v == a) (fun v => second v == b) votes
  unfold firstCount at left
  unfold secondCount at right
  unfold bothCount
  omega

theorem outcome_bothLast :
    outcome first second quorum (bothLast first second a b votes) ≠ none := by
  have positive := bothCount_pos few left right
  unfold bothCount at positive
  rw [countP_eq_length_filter] at positive
  obtain ⟨before, v, ending⟩ := eq_nil_or_concat' _ |>.resolve_left
    (ne_nil_of_length_pos positive)
  have both : (first v == a && second v == b) = true := by
    have listed : v ∈ votes.filter fun v => first v == a && second v == b := by
      rw [ending]
      exact mem_append_right before mem_cons_self
    exact (mem_filter.mp listed).2
  rw [Bool.and_eq_true, beq_iff_eq, beq_iff_eq] at both
  have order : bothLast first second a b votes =
      (votes.filter fun v => !(first v == a && second v == b)) ++ before ++ [v] := by
    rw [bothLast, ending, append_assoc]
  have same : (bothLast first second a b votes).Perm votes := bothLast_perm
  rw [order] at same
  have found : (choose first second quorum [] (bothLast first second a b votes)).isSome := by
    rw [order]
    apply choose_isSome_last
    · unfold firstCount at left ⊢
      rwa [same.countP_eq, both.1]
    · unfold secondCount at right ⊢
      rwa [same.countP_eq, both.2]
  rw [outcome, ne_eq, Option.map_eq_none_iff]
  exact Option.isSome_iff_ne_none.mp found

/-- They are not found if what they share comes first and is no quorum. -/
theorem outcome_bothFirst (apart : bothCount first second a b votes < quorum) :
    outcome first second quorum (bothFirst first second a b votes) = none := by
  rw [outcome, Option.map_eq_none_iff, Option.eq_none_iff_forall_ne_some]
  intro v chosen
  have reached := (choose_some chosen).2
  rw [append_nil] at reached
  unfold firstCount secondCount at reached
  rw [bothFirst_perm.countP_eq, bothFirst_perm.countP_eq] at reached
  have values : first v = a ∧ second v = b :=
    ⟨firstCount_unique few reached.1 left, secondCount_unique few reached.2 right⟩
  rw [bothFirst, choose_append, Option.or_eq_some_iff] at chosen
  rcases chosen with early | ⟨_, late⟩
  · -- only votes with both values are visited so far, and they are too few
    have reached := (choose_some early).2.1
    rw [append_nil] at reached
    unfold bothCount at apart
    rw [countP_eq_length_filter] at apart
    exact absurd (Nat.le_trans reached countP_le_length) (Nat.not_le.mpr apart)
  · have listed := (mem_filter.mp (choose_some late).1).2
    rw [values.1, values.2] at listed
    simp at listed

end Fleta.TwofoldMajority
