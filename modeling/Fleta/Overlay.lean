import Mathlib.Tactic.Common

/-!
# Stacked layers with deletion marks

A layer says of a key that it is deleted, that it has a value, or nothing. A
stack answers with its topmost layer that says something. Collapsing the upper
layers into one takes the union of their deletion marks, and a mark that a newer
value was meant to overwrite survives the union. `collapse_answer` says exactly
when that changes the answer.
-/

namespace Fleta.Overlay

variable {Value : Type}

/-- One layer at one key. A deletion mark hides the value beside it. -/
structure Layer (Value : Type) where
  deleted : Bool
  value : Option Value

inductive Answer (Value : Type) where
  | silent
  | deleted
  | value (value : Value)

def Layer.answer (layer : Layer Value) : Answer Value :=
  if layer.deleted then .deleted
  else match layer.value with
    | some value => .value value
    | none => .silent

def Answer.orElse : Answer Value → Answer Value → Answer Value
  | .silent, next => next
  | answer, _ => answer

def lookup : List (Layer Value) → Answer Value
  | [] => .silent
  | layer :: lower => layer.answer.orElse (lookup lower)

def merge (child parent : Layer Value) : Layer Value where
  deleted := child.deleted || parent.deleted
  value := if child.deleted then none else child.value.or parent.value

def collapse : Layer Value → List (Layer Value) → Layer Value
  | child, [] => child
  | child, parent :: lower => collapse (merge child parent) lower

/-- The topmost answer is a value, and a layer below it still marks the key. -/
def Shadowed : List (Layer Value) → Prop
  | [] => False
  | layer :: lower =>
    match layer.answer with
    | .silent => Shadowed lower
    | .deleted => False
    | .value _ => ∃ marked ∈ lower, marked.deleted = true

/-- Merging two layers keeps the stack's answer unless the child's value lies
over the parent's mark. -/
theorem shadowed_merge (child parent : Layer Value) (lower : List (Layer Value)) :
    Shadowed (merge child parent :: lower) ∨
        (∃ value, child.answer = .value value ∧ parent.deleted = true) ↔
      Shadowed (child :: parent :: lower) := by
  obtain ⟨childDeleted, childValue⟩ := child
  obtain ⟨parentDeleted, parentValue⟩ := parent
  cases childDeleted <;> cases parentDeleted <;> cases childValue <;> cases parentValue <;>
    simp [Shadowed, merge, Layer.answer]

theorem lookup_merge (child parent : Layer Value) (lower : List (Layer Value))
    (kept : ¬∃ value, child.answer = .value value ∧ parent.deleted = true) :
    lookup (merge child parent :: lower) = lookup (child :: parent :: lower) := by
  obtain ⟨childDeleted, childValue⟩ := child
  obtain ⟨parentDeleted, parentValue⟩ := parent
  cases childDeleted <;> cases parentDeleted <;> cases childValue <;> cases parentValue <;>
    simp_all [lookup, merge, Layer.answer, Answer.orElse]

variable (child : Layer Value) (lower : List (Layer Value))

theorem collapse_deleted :
    (collapse child lower).deleted = true ↔
      child.deleted = true ∨ ∃ marked ∈ lower, marked.deleted = true := by
  induction lower generalizing child with
  | nil => simp [collapse]
  | cons parent lower ih =>
    rw [collapse, ih]
    simp [merge, or_assoc]

theorem collapse_answer :
    (Shadowed (child :: lower) → (collapse child lower).answer = .deleted) ∧
      (¬Shadowed (child :: lower) →
        (collapse child lower).answer = lookup (child :: lower)) := by
  induction lower generalizing child with
  | nil =>
    refine ⟨?_, ?_⟩ <;> simp only [Shadowed, collapse, lookup] <;>
      cases child.answer <;> simp [Answer.orElse]
  | cons parent lower ih =>
    have merged := shadowed_merge child parent lower
    rw [collapse]
    refine ⟨fun shadowed => ?_, fun clear => ?_⟩
    · rcases merged.mpr shadowed with deeper | ⟨_, _, marked⟩
      · exact (ih _).1 deeper
      · have mark : (collapse (merge child parent) lower).deleted = true := by
          rw [collapse_deleted]
          simp [merge, marked]
        simp [Layer.answer, mark]
    · have kept := fun found => clear (merged.mp (.inr found))
      rw [(ih _).2 fun deeper => clear (merged.mp (.inl deeper)),
        lookup_merge child parent lower kept]

theorem lookup_append (upper lower : List (Layer Value)) :
    lookup (upper ++ lower) = (lookup upper).orElse (lookup lower) := by
  induction upper with
  | nil => rfl
  | cons layer upper ih =>
    rw [List.cons_append, lookup, lookup, ih]
    cases layer.answer <;> rfl

variable {layers : List (Layer Value)}

theorem lookup_value_held {value : Value}
    (found : lookup layers = .value value) : ∃ layer ∈ layers, layer.value = some value := by
  induction layers with
  | nil => cases found
  | cons layer lower ih =>
    obtain ⟨deleted, stored⟩ := layer
    cases deleted <;> cases stored <;> simp_all [lookup, Layer.answer, Answer.orElse]

theorem shadowed_lookup (shadowed : Shadowed layers) :
    ∃ layer ∈ layers, ∃ value, layer.deleted = false ∧ layer.value = some value ∧
      lookup layers = .value value := by
  induction layers with
  | nil => exact shadowed.elim
  | cons layer lower ih =>
    obtain ⟨deleted, stored⟩ := layer
    cases deleted <;> cases stored <;> simp_all [Shadowed, lookup, Layer.answer, Answer.orElse]

/-! ### Stacks without shadows -/

/-- The layer holds no value for a key that the layer below marks. -/
def Layer.Respects (above below : Layer Value) : Prop :=
  below.deleted = true → above.value = none

theorem Layer.Respects.merge {child parent lower : Layer Value} (above : child.Respects lower)
    (below : parent.Respects lower) : (merge child parent).Respects lower := by
  intro marked
  simp [Overlay.merge, above marked, below marked]

theorem lookup_of_mark (ordered : layers.Pairwise Layer.Respects)
    {layer : Layer Value} (member : layer ∈ layers) (marked : layer.deleted = true) :
    lookup layers = .deleted := by
  induction layers with
  | nil => cases member
  | cons top lower ih =>
    have split := List.pairwise_cons.mp ordered
    rw [lookup, Layer.answer]
    rcases List.mem_cons.mp member with head | tail
    · rw [← head, marked]
      rfl
    · rw [split.1 layer tail marked, ih split.2 tail]
      cases top.deleted <;> rfl

theorem lookup_ne_deleted
    (unmarked : ∀ layer ∈ layers, layer.deleted = false) : lookup layers ≠ .deleted := by
  induction layers with
  | nil =>
    intro marked
    cases marked
  | cons top lower ih =>
    rw [lookup, Layer.answer, unmarked top List.mem_cons_self]
    cases top.value with
    | some value =>
      intro marked
      cases marked
    | none => exact ih fun layer member => unmarked layer (List.mem_cons_of_mem _ member)

theorem lookup_merge_of_respects {child parent : Layer Value} (respects : child.Respects parent)
    (lower : List (Layer Value)) :
    lookup (merge child parent :: lower) = lookup (child :: parent :: lower) := by
  refine lookup_merge child parent lower ?_
  intro held
  obtain ⟨value, answered, marked⟩ := held
  rw [Layer.answer, respects marked] at answered
  cases deleted : child.deleted <;> simp [deleted] at answered

end Fleta.Overlay
