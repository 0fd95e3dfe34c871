import Mathlib.Data.List.Nodup
import Mathlib.Tactic.Common

/-!
# Ordered finite maps

The node keeps every state map in a balanced tree that is read in ascending key
order. Only the key/value content of such a tree is observable, so the model is
the extensional tree map of the standard library under the words of the source:
`get`, `has`, `put`, `delete`, `len` and `eachAll`. The last part folds one map
into another, which is what a merge loop over `eachAll` does.
-/

namespace Fleta

abbrev SortedMap (Key Value : Type) [Ord Key] := Std.ExtTreeMap Key Value compare

namespace SortedMap

variable {Key Value Other : Type} [Ord Key] [Std.TransOrd Key]

def empty : SortedMap Key Value := ∅

def get (map : SortedMap Key Value) (key : Key) : Option Value := map[key]?

def has (map : SortedMap Key Value) (key : Key) : Bool := map.contains key

def put (map : SortedMap Key Value) (key : Key) (value : Value) : SortedMap Key Value :=
  map.insert key value

def delete (map : SortedMap Key Value) (key : Key) : SortedMap Key Value := map.erase key

def len (map : SortedMap Key Value) : Nat := map.size

/-- The bindings in the order in which the tree iterator visits them. -/
def eachAll (map : SortedMap Key Value) : List (Key × Value) := map.toList

@[simp] theorem get_empty (key : Key) : (empty : SortedMap Key Value).get key = none := by
  simp [empty, get]

@[simp] theorem has_eq (map : SortedMap Key Value) (key : Key) :
    map.has key = (map.get key).isSome :=
  Std.ExtTreeMap.contains_eq_isSome_getElem?

theorem eachAll_empty : (empty : SortedMap Key Value).eachAll = [] := rfl

variable {map : SortedMap Key Value}

theorem len_eq_zero : map.len = 0 ↔ map = empty :=
  Std.ExtTreeMap.eq_empty_iff_size_eq_zero.symm

variable [Std.LawfulEqOrd Key]

theorem ext_get {left right : SortedMap Key Value}
    (same : ∀ key, left.get key = right.get key) : left = right :=
  Std.ExtTreeMap.ext_getElem? same

theorem get_put [DecidableEq Key] (map : SortedMap Key Value) (key other : Key) (value : Value) :
    (map.put key value).get other = if key = other then some value else map.get other := by
  simp [put, get, Std.ExtTreeMap.getElem?_insert]

@[simp] theorem get_put_self (map : SortedMap Key Value) (key : Key) (value : Value) :
    (map.put key value).get key = some value := by
  simp [put, get]

variable {key other : Key}

theorem get_put_of_ne (map : SortedMap Key Value) (value : Value)
    (different : key ≠ other) : (map.put key value).get other = map.get other := by
  classical
  rw [get_put, if_neg different]

theorem isSome_get_put (has : (map.get other).isSome = true) (key : Key) (value : Value) :
    ((map.put key value).get other).isSome = true := by
  classical
  rw [get_put]
  split
  · rfl
  · exact has

theorem forall_get_put {Holds : Key → Value → Prop}
    {value : Value} (all : ∀ other held, map.get other = some held → Holds other held)
    (new : Holds key value) :
    ∀ other held, (map.put key value).get other = some held → Holds other held := by
  classical
  intro other held found
  rw [get_put] at found
  split at found
  · rename_i same
    subst same
    cases found
    exact new
  · exact all other held found

theorem get_delete [DecidableEq Key] (map : SortedMap Key Value) (key other : Key) :
    (map.delete key).get other = if key = other then none else map.get other := by
  simp [delete, get, Std.ExtTreeMap.getElem?_erase]

@[simp] theorem get_delete_self (map : SortedMap Key Value) (key : Key) :
    (map.delete key).get key = none := by
  simp [delete, get]

theorem get_delete_of_ne (map : SortedMap Key Value)
    (different : key ≠ other) : (map.delete key).get other = map.get other := by
  classical
  rw [get_delete, if_neg different]

theorem get_of_get_delete {value : Value} (held : (map.delete key).get other = some value) :
    map.get other = some value := by
  classical
  rw [get_delete] at held
  split at held
  · cases held
  · exact held

theorem mem_eachAll (map : SortedMap Key Value) (key : Key) (value : Value) :
    (key, value) ∈ map.eachAll ↔ map.get key = some value :=
  Std.ExtTreeMap.mem_toList_iff_getElem?_eq_some

omit [Std.LawfulEqOrd Key] in
@[simp] theorem length_eachAll (map : SortedMap Key Value) : map.eachAll.length = map.len :=
  Std.ExtTreeMap.length_toList

variable (value : Value)

theorem each_all_keys_nodup (map : SortedMap Key Value) : (map.eachAll.map Prod.fst).Nodup := by
  have distinct := Std.ExtTreeMap.distinct_keys_toList (t := map)
  rw [List.Nodup, List.pairwise_map]
  refine distinct.imp ?_
  intro left right different same
  exact different (by rw [same, Std.LawfulEqOrd.compare_eq_iff_eq])

theorem has_iff_key_visited (map : SortedMap Key Value) (key : Key) :
    (map.get key).isSome = true ↔ key ∈ map.eachAll.map Prod.fst := by
  rw [Option.isSome_iff_exists, List.mem_map]
  constructor
  · rintro ⟨value, found⟩
    exact ⟨(key, value), (mem_eachAll map key value).mpr found, rfl⟩
  · rintro ⟨⟨_, value⟩, visited, rfl⟩
    exact ⟨value, (mem_eachAll map _ value).mp visited⟩

theorem eachAll_perm {entries : List (Key × Value)} (distinct : (entries.map Prod.fst).Nodup)
    (same : ∀ key value, map.get key = some value ↔ (key, value) ∈ entries) :
    map.eachAll.Perm entries := by
  apply (List.perm_ext_iff_of_nodup (List.Nodup.of_map _ (each_all_keys_nodup map))
    (List.Nodup.of_map _ distinct)).mpr
  intro entry
  rw [← same entry.1 entry.2, ← mem_eachAll]

theorem each_all_keys_eq {left : SortedMap Key Value} {right : SortedMap Key Other}
    (same : ∀ key, (left.get key).isSome = (right.get key).isSome) :
    left.eachAll.map Prod.fst = right.eachAll.map Prod.fst := by
  have keys : (left.eachAll.map Prod.fst).Perm (right.eachAll.map Prod.fst) := by
    apply (List.perm_ext_iff_of_nodup (each_all_keys_nodup left) (each_all_keys_nodup right)).mpr
    intro key
    rw [← has_iff_key_visited, ← has_iff_key_visited, same]
  have ascending : ∀ {Other : Type} (map : SortedMap Key Other),
      (map.eachAll.map Prod.fst).Pairwise fun a b => compare a b = .lt :=
    fun _ => List.pairwise_map.mpr Std.ExtTreeMap.ordered_keys_toList
  refine List.Perm.eq_of_pairwise ?_ (ascending left) (ascending right) keys
  intro a b _ _ below above
  rw [Std.OrientedCmp.gt_of_lt below] at above
  cases above

theorem eachAll_put_absent (absent : map.get key = none) :
    (map.put key value).eachAll.Perm ((key, value) :: map.eachAll) := by
  classical
  apply eachAll_perm
  · rw [List.map_cons, List.nodup_cons, ← has_iff_key_visited, absent]
    exact ⟨by simp, each_all_keys_nodup map⟩
  · intro other held
    rw [get_put, List.mem_cons, mem_eachAll, Prod.mk.injEq]
    split
    · rename_i equal
      subst equal
      simp [absent, eq_comm]
    · rename_i different
      simp [Ne.symm different]

theorem eachAll_delete {value : Value} (found : map.get key = some value) :
    map.eachAll.Perm ((key, value) :: (map.delete key).eachAll) := by
  have restored : (map.delete key).put key value = map := by
    classical
    apply ext_get
    intro other
    rw [get_put, get_delete]
    split
    · rename_i equal
      rw [← equal, found]
    · rfl
  have absent := get_delete_self map key
  have listed := eachAll_put_absent value absent
  rwa [restored] at listed

section Loops

variable {Target Held : Type} [Ord Target] [Std.TransOrd Target]

theorem get_foldl_frame_mem {Entry : Type}
    (step : SortedMap Target Held → Entry → SortedMap Target Held) (target : Target)
    {entries : List Entry}
    (frame : ∀ map, ∀ entry ∈ entries, (step map entry).get target = map.get target)
    (dst : SortedMap Target Held) : (entries.foldl step dst).get target = dst.get target := by
  induction entries generalizing dst with
  | nil => rfl
  | cons entry entries ih =>
    rw [List.foldl_cons, ih fun map other member => frame map other (by simp [member]),
      frame dst entry (by simp)]

theorem get_foldl_frame {Entry : Type}
    (step : SortedMap Target Held → Entry → SortedMap Target Held) (target : Target)
    (frame : ∀ map entry, (step map entry).get target = map.get target)
    (entries : List Entry) (dst : SortedMap Target Held) :
    (entries.foldl step dst).get target = dst.get target :=
  get_foldl_frame_mem step target (fun map entry _ => frame map entry) dst

variable [DecidableEq Key] (step : SortedMap Target Held → Key × Value → SortedMap Target Held)
  (target : Target) (key : Key) (write : Value → Option Held → Option Held)
  (writes : ∀ map entry, (step map entry).get target =
    if entry.1 = key then write entry.2 (map.get target) else map.get target)

include writes

variable (entries : List (Key × Value)) (dst : SortedMap Target Held)

omit [Ord Key] [Std.TransOrd Key] [Std.LawfulEqOrd Key] in
private theorem get_foldl_absent (absent : key ∉ entries.map Prod.fst) :
    (entries.foldl step dst).get target = dst.get target := by
  refine get_foldl_frame_mem step target (fun map entry member => ?_) dst
  have other : entry.1 ≠ key := fun same => absent (same ▸ List.mem_map_of_mem member)
  rw [writes, if_neg other]

omit [Ord Key] [Std.TransOrd Key] [Std.LawfulEqOrd Key] in
private theorem get_foldl_listed
    (value : Value) (distinct : (entries.map Prod.fst).Nodup) (listed : (key, value) ∈ entries) :
    (entries.foldl step dst).get target = write value (dst.get target) := by
  induction entries generalizing dst with
  | nil => simp at listed
  | cons entry entries ih =>
    simp only [List.map_cons, List.nodup_cons] at distinct
    rw [List.foldl_cons]
    rcases List.mem_cons.mp listed with head | tail
    · subst head
      rw [get_foldl_absent step target key write writes _ _ distinct.1, writes, if_pos rfl]
    · have skipped : entry.1 ≠ key := by
        intro same
        refine distinct.1 (same ▸ ?_)
        exact List.mem_map_of_mem tail
      rw [ih _ distinct.2 tail, writes, if_neg skipped]

/-- A loop over a map whose rounds write the key `target` exactly when they visit
`key` leaves there what the visited value makes of the old content. -/
theorem get_foldl_eachAll (src : SortedMap Key Value) (dst : SortedMap Target Held) :
    (src.eachAll.foldl step dst).get target =
      match src.get key with
      | some value => write value (dst.get target)
      | none => dst.get target := by
  cases found : src.get key with
  | none =>
    have absent : key ∉ src.eachAll.map Prod.fst := by
      rw [← has_iff_key_visited, found]
      simp
    exact get_foldl_absent step target key write writes _ _ absent
  | some value =>
    exact get_foldl_listed step target key write writes _ _ value (each_all_keys_nodup src)
      ((mem_eachAll src key value).mpr found)

end Loops

/-- `src.EachAll(func(k, v) { dst.Put(k, v) })`. -/
def putAll (src dst : SortedMap Key Value) : SortedMap Key Value :=
  src.eachAll.foldl (fun map entry => map.put entry.1 entry.2) dst

/-- `src.EachAll(func(k, _) { dst.Delete(k) })`. -/
def deleteAll (src : SortedMap Key Other) (dst : SortedMap Key Value) : SortedMap Key Value :=
  src.eachAll.foldl (fun map entry => map.delete entry.1) dst

theorem get_putAll (src dst : SortedMap Key Value) (key : Key) :
    (putAll src dst).get key = (src.get key).or (dst.get key) := by
  classical
  rw [putAll, get_foldl_eachAll _ key key (fun value _ => some value) fun map entry => get_put map _ _ _]
  cases src.get key <;> rfl

theorem get_deleteAll (src : SortedMap Key Other) (dst : SortedMap Key Value) (key : Key) :
    (deleteAll src dst).get key = if (src.get key).isSome then none else dst.get key := by
  classical
  rw [deleteAll, get_foldl_eachAll _ key key (fun _ _ => none) fun map entry => get_delete map _ _]
  cases src.get key <;> rfl

theorem get_foldl_delete [DecidableEq Key] (keys : List Key) (map : SortedMap Key Value)
    (key : Key) :
    (keys.foldl (·.delete ·) map).get key = if key ∈ keys then none else map.get key := by
  induction keys generalizing map with
  | nil => simp
  | cons head keys ih =>
    rw [List.foldl_cons, ih, get_delete]
    by_cases same : head = key
    · simp [same]
    · have different : ¬key = head := fun equal => same equal.symm
      simp only [List.mem_cons, different, same, false_or, if_false]

end SortedMap

end Fleta
