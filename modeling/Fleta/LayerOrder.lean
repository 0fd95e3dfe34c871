import Fleta.ContextCommit

/-!
# Stacks in which nothing is shadowed

For a kind of data, no layer of the stack holds a value for a key that a layer below it
marks as deleted. Such a stack answers with the mark wherever there is one, and `Commit`
and `Revert` leave such a stack behind.
-/

namespace Fleta

open Overlay

variable {Acc Ev Key Value Result : Type}

namespace ContextData

/-- The layer holds no value of the kind for a key that the layer below marks. -/
def Respects (slots : Key → Slot Acc Ev Value Result) (above below : ContextData Acc Ev) : Prop :=
  ∀ key, ((slots key).layer above).Respects ((slots key).layer below)

variable {slots : Key → Slot Acc Ev Value Result} {layers : List (ContextData Acc Ev)}

theorem pairwise_layers (ordered : layers.Pairwise (Respects slots)) (key : Key) :
    (layers.map (slots key).layer).Pairwise Layer.Respects :=
  List.pairwise_map.mpr (ordered.imp fun respects => respects key)

theorem lookup_marked
    (ordered : layers.Pairwise (Respects slots)) {key : Key} {layer : ContextData Acc Ev}
    (member : layer ∈ layers) (marked : (slots key).deleted layer = true) :
    lookup (layers.map (slots key).layer) = .deleted :=
  lookup_of_mark (pairwise_layers ordered key) (List.mem_map_of_mem member) marked

theorem lookup_unmarked {key : Key}
    (unmarked : ∀ layer ∈ layers, (slots key).deleted layer = false) :
    lookup (layers.map (slots key).layer) ≠ .deleted := by
  refine lookup_ne_deleted fun layer member => ?_
  obtain ⟨ctd, stacked, rfl⟩ := List.mem_map.mp member
  exact unmarked ctd stacked

theorem Respects.mergeInto (merges : ∀ key, (slots key).Merges)
    {child parent lower : ContextData Acc Ev} (above : child.Respects slots lower)
    (below : parent.Respects slots lower) : (mergeInto child parent).Respects slots lower := by
  intro key
  rw [(merges key).merge]
  exact (above key).merge (below key)

theorem commitLoop_respects (merges : ∀ key, (slots key).Merges) (sn : Nat)
    (ctd : ContextData Acc Ev) (parents : List (ContextData Acc Ev))
    (ordered : (ctd :: parents).Pairwise (Respects slots)) :
    ((commitLoop sn ctd parents).1 :: (commitLoop sn ctd parents).2).Pairwise (Respects slots) := by
  refine commitLoop_keeps (List.Pairwise (Respects slots)) (fun child parent rest ordered => ?_) sn ordered
  have upper := List.pairwise_cons.mp ordered
  have below := List.pairwise_cons.mp upper.2
  refine List.pairwise_cons.mpr ⟨fun lower member => ?_, below.2⟩
  exact Respects.mergeInto merges (upper.1 lower (List.mem_cons_of_mem _ member))
    (below.1 lower member)

theorem revertLoop_respects (sn : Nat) (ctd : ContextData Acc Ev)
    (parents : List (ContextData Acc Ev)) (ordered : (ctd :: parents).Pairwise (Respects slots)) :
    ((revertLoop sn ctd parents).1 :: (revertLoop sn ctd parents).2).Pairwise (Respects slots) :=
  revertLoop_keeps (List.Pairwise (Respects slots)) (fun _ _ => List.Pairwise.of_cons) sn ordered

theorem pairwise_withTop (merges : ∀ key, (slots key).Merges) {ctd : ContextData Acc Ev}
    {parents : List (ContextData Acc Ev)} (ordered : (ctd :: parents).Pairwise (Respects slots))
    (isTop : Bool) :
    (({ ctd with isTop := isTop } : ContextData Acc Ev) :: parents).Pairwise (Respects slots) := by
  have split := List.pairwise_cons.mp ordered
  refine List.pairwise_cons.mpr ⟨fun lower member key => ?_, split.2⟩
  rw [(merges key).withTop]
  exact split.1 lower member key

end ContextData

end Fleta
