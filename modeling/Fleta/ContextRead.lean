import Fleta.Context
import Fleta.Overlay

/-!
# What a read of a context returns and keeps

A read is the overlay lookup of the stack, with the loader below it. In a stack
whose lower layers are not the top, it changes nothing but the copy kept in the top
layer and the answer remembered by the cache.
-/

namespace Fleta

open Overlay

variable {Acc Ev Value Result : Type}

namespace Slot

def layer (slot : Slot Acc Ev Value Result) (ctd : ContextData Acc Ev) : Layer Value :=
  ⟨slot.deleted ctd, slot.value ctd⟩

def result (slot : Slot Acc Ev Value Result) (below : Result) : Answer Value → Result
  | .silent => below
  | .deleted => slot.gone
  | .value value => slot.hit value

theorem value_of_silent {slot : Slot Acc Ev Value Result} {ctd : ContextData Acc Ev}
    (silent : (slot.layer ctd).answer = .silent) : slot.value ctd = none := by
  unfold Layer.answer at silent
  split at silent
  · cases silent
  split at silent
  · cases silent
  · assumption

end Slot

namespace ContextData

variable (slot : Slot Acc Ev Value Result) (below : ContextCache Acc → Result × ContextCache Acc)

def readBelow (slot : Slot Acc Ev Value Result)
    (below : ContextCache Acc → Result × ContextCache Acc) (cache : ContextCache Acc) :
    List (ContextData Acc Ev) → Result × List (ContextData Acc Ev) × ContextCache Acc
  | [] => ((below cache).1, [], (below cache).2)
  | parent :: rest =>
    let (result, parent, rest, cache) := read slot below parent rest cache
    (result, parent :: rest, cache)

variable (ctd : ContextData Acc Ev) (parents : List (ContextData Acc Ev)) (cache : ContextCache Acc)

theorem read_eq :
    read slot below ctd parents cache =
      match (slot.layer ctd).answer with
      | .silent =>
        let (result, parents, cache) := readBelow slot below cache parents
        (result, keepFound slot result ctd, parents, cache)
      | .deleted => (slot.gone, ctd, parents, cache)
      | .value value => (slot.hit value, ctd, parents, cache) := by
  unfold read
  simp only [Slot.layer, Layer.answer]
  by_cases marked : slot.deleted ctd = true
  · simp [marked]
  · cases held : slot.value ctd with
    | some value => simp [marked]
    | none => cases parents <;> simp [marked, readBelow]

/-- The cache is asked only when the whole stack is silent. -/
def cacheAfter (below : ContextCache Acc → Result × ContextCache Acc) (cache : ContextCache Acc) :
    Answer Value → ContextCache Acc
  | .silent => (below cache).2
  | _ => cache

theorem read_spec :
    (read slot below ctd parents cache).1 =
        slot.result (below cache).1 (lookup ((ctd :: parents).map slot.layer)) ∧
      (read slot below ctd parents cache).2.2.2 =
        cacheAfter below cache (lookup ((ctd :: parents).map slot.layer)) := by
  induction parents generalizing ctd with
  | nil =>
    rw [read_eq, List.map_cons, lookup]
    cases (slot.layer ctd).answer <;> exact ⟨rfl, rfl⟩
  | cons parent rest ih =>
    rw [read_eq, List.map_cons, lookup]
    cases (slot.layer ctd).answer with
    | silent => exact ih parent
    | deleted => exact ⟨rfl, rfl⟩
    | value value => exact ⟨rfl, rfl⟩

def kept (slot : Slot Acc Ev Value Result) (result : Result) (ctd : ContextData Acc Ev) :
    ContextData Acc Ev :=
  match (slot.layer ctd).answer with
  | .silent => keepFound slot result ctd
  | _ => ctd

variable (result : Result)

theorem kept_cases (ctd : ContextData Acc Ev) :
    kept slot result ctd = ctd ∨
      ∃ value, slot.value ctd = none ∧ slot.found result = some value ∧
        kept slot result ctd = slot.keep value ctd := by
  rw [kept, keepFound]
  cases answered : (slot.layer ctd).answer with
  | deleted => exact .inl rfl
  | value value => exact .inl rfl
  | silent =>
    cases slot.found result with
    | none => exact .inl rfl
    | some copy =>
      dsimp only
      split
      · exact .inr ⟨copy, Slot.value_of_silent answered, rfl, rfl⟩
      · exact .inl rfl

theorem kept_lower {ctd : ContextData Acc Ev} (lower : ctd.isTop = false) :
    kept slot result ctd = ctd := by
  unfold kept keepFound
  cases (slot.layer ctd).answer with
  | silent => cases slot.found result <;> simp [lower]
  | deleted => rfl
  | value value => rfl

theorem read_top :
    (read slot below ctd parents cache).2.1 =
      kept slot (read slot below ctd parents cache).1 ctd := by
  rw [read_eq, kept]
  cases (slot.layer ctd).answer <;> rfl

theorem read_parents (lower : ∀ parent ∈ parents, parent.isTop = false) :
    (read slot below ctd parents cache).2.2.1 = parents := by
  induction parents generalizing ctd with
  | nil =>
    rw [read_eq]
    cases (slot.layer ctd).answer <;> rfl
  | cons parent rest ih =>
    rw [read_eq]
    cases (slot.layer ctd).answer with
    | silent =>
      -- the parent is not the top, so it keeps nothing
      have parentKept : (read slot below parent rest cache).2.1 = parent := by
        rw [read_top, kept_lower slot _ (lower parent (by simp))]
      have restKept := ih parent fun other member => lower other (by simp [member])
      simp only [readBelow, parentKept, restKept]
    | deleted => rfl
    | value value => rfl

theorem hasKey_eq (present : ContextData Acc Ev → Bool)
    (held : ∀ ctd, present ctd = (slot.value ctd).isSome) (below : Except Err Bool)
    (layers : List (ContextData Acc Ev)) :
    hasKey slot.deleted present below layers =
      match lookup (layers.map slot.layer) with
      | .silent => below
      | .deleted => .ok false
      | .value _ => .ok true := by
  induction layers with
  | nil => rfl
  | cons ctd layers ih =>
    rw [hasKey, List.map_cons, lookup, held]
    simp only [Slot.layer, Layer.answer]
    by_cases marked : slot.deleted ctd = true
    · simp [marked, Answer.orElse]
    · cases slot.value ctd with
      | some value => simp [marked, Answer.orElse]
      | none =>
        simp only [marked, Option.isSome_none, Bool.false_eq_true, if_false, Answer.orElse]
        exact ih

end ContextData

end Fleta
