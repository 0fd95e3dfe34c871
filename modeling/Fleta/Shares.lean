import Mathlib.Algebra.BigOperators.Group.List.Basic
import Mathlib.Tactic.Linarith
import Mathlib.Tactic.Ring

/-!
# Floored shares of a pot

A pot is divided in proportion to weights in two steps, and both round down: the ratio of
the pot to the total weight, in a fixed unit, and then for every weight its product with the
ratio, back from the unit.
-/

namespace Shares

def ratio (unit pot total : Int) : Int := pot * unit / total

def share (unit rate weight : Int) : Int := weight * rate / unit

def shares (unit rate : Int) (weights : List Int) : Int := (weights.map (share unit rate)).sum

variable {unit pot total rate : Int} {weights : List Int}

theorem ratio_nonneg (unit_nonneg : 0 ≤ unit) (pot_nonneg : 0 ≤ pot) (total_nonneg : 0 ≤ total) :
    0 ≤ ratio unit pot total :=
  Int.ediv_nonneg (mul_nonneg pot_nonneg unit_nonneg) total_nonneg

theorem share_nonneg (unit_nonneg : 0 ≤ unit) (rate_nonneg : 0 ≤ rate) {weight : Int}
    (weight_nonneg : 0 ≤ weight) : 0 ≤ share unit rate weight :=
  Int.ediv_nonneg (mul_nonneg weight_nonneg rate_nonneg) unit_nonneg

variable (positive : 0 < unit)

include positive

theorem shares_mul_le : shares unit rate weights * unit ≤ weights.sum * rate := by
  induction weights with
  | nil => simp [shares]
  | cons weight weights ih =>
    have floored : share unit rate weight * unit ≤ weight * rate := Int.ediv_mul_le _ positive.ne'
    simp only [shares, List.map_cons, List.sum_cons, add_mul] at ih ⊢
    exact add_le_add floored ih

theorem mul_le_shares :
    weights.sum * rate ≤ (shares unit rate weights + weights.length) * unit := by
  induction weights with
  | nil => simp [shares]
  | cons weight weights ih =>
    have floored : weight * rate < (share unit rate weight + 1) * unit :=
      Int.lt_ediv_add_one_mul_self _ positive
    simp only [shares, List.map_cons, List.sum_cons, List.length_cons, Nat.cast_succ] at ih ⊢
    linarith

theorem shares_le_pot (weighted : 0 < weights.sum) :
    shares unit (ratio unit pot weights.sum) weights ≤ pot := by
  have floored : weights.sum * ratio unit pot weights.sum ≤ pot * unit := by
    rw [mul_comm]
    exact Int.ediv_mul_le _ weighted.ne'
  exact le_of_mul_le_mul_right ((shares_mul_le positive).trans floored) positive

/-- What is left of the pot: less than the total weight for the ratio and less than a unit
for every share, in parts of the unit. -/
theorem left_of_pot_lt (weighted : 0 < weights.sum) :
    (pot - shares unit (ratio unit pot weights.sum) weights) * unit <
      weights.sum + weights.length * unit := by
  have lost : pot * unit < (ratio unit pot weights.sum + 1) * weights.sum :=
    Int.lt_ediv_add_one_mul_self _ weighted
  have given : weights.sum * ratio unit pot weights.sum ≤
      (shares unit (ratio unit pot weights.sum) weights + weights.length) * unit :=
    mul_le_shares positive
  linarith

end Shares
