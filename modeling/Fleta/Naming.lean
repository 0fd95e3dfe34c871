import Mathlib.Tactic.Common

/-!
# Holders of names and the register of names

Every holder has at most one name, and the register leads from a name to a holder. The two
match when the register finds a holder under a name exactly if the holder bears it. A
match is kept by naming a new holder with a free name, and by taking a holder and its name
away together.
-/

namespace Fleta.Naming

variable {Holder Name : Type}

/-- The register finds exactly the holder that bears the name. -/
def Match (nameOf : Holder → Option Name) (find : Name → Option Holder) : Prop :=
  ∀ name holder, find name = some holder ↔ nameOf holder = some name

namespace Match

variable {nameOf : Holder → Option Name} {find : Name → Option Holder}

theorem unique (matched : Match nameOf find) {left right : Holder} {name : Name}
    (leftNamed : nameOf left = some name) (rightNamed : nameOf right = some name) :
    left = right := by
  have found := (matched name left).mpr leftNamed
  rw [(matched name right).mpr rightNamed] at found
  exact (Option.some.inj found).symm

variable [DecidableEq Holder] [DecidableEq Name]

variable (matched : Match nameOf find)

include matched

variable {holder : Holder} {name : Name}

/-- The holder and the name that are changed belong to nobody else, before and after. -/
theorem update {named : Option Name} {found : Option Holder}
    (ownName : ∀ other, nameOf holder = some other → other = name)
    (ownHolder : ∀ bearer, find name = some bearer → bearer = holder)
    (newName : ∀ other, named = some other → other = name)
    (newHolder : ∀ bearer, found = some bearer → bearer = holder)
    (fits : found = some holder ↔ named = some name) :
    Match (Function.update nameOf holder named) (Function.update find name found) := by
  intro other bearer
  by_cases sameName : other = name
  · by_cases sameHolder : bearer = holder
    · rw [sameName, sameHolder, Function.update_self, Function.update_self]
      exact fits
    · rw [sameName, Function.update_self, Function.update_of_ne sameHolder, ← matched]
      exact iff_of_false (fun new => sameHolder (newHolder bearer new))
        (fun old => sameHolder (ownHolder bearer old))
  · rw [Function.update_of_ne sameName]
    by_cases sameHolder : bearer = holder
    · rw [sameHolder, Function.update_self, matched]
      exact iff_of_false (fun old => sameName (ownName other old))
        (fun new => sameName (newName other new))
    · rw [Function.update_of_ne sameHolder]
      exact matched other bearer

theorem insert (nameless : nameOf holder = none) (free : find name = none) :
    Match (Function.update nameOf holder (some name)) (Function.update find name (some holder)) := by
  apply matched.update
  · simp [nameless]
  · simp [free]
  · simp
  · simp
  · simp

theorem remove (named : nameOf holder = some name) :
    Match (Function.update nameOf holder none) (Function.update find name none) := by
  have registered := (matched name holder).mpr named
  apply matched.update
  · simp [named]
  · simp [registered]
  · simp
  · simp
  · simp

end Match

end Fleta.Naming
