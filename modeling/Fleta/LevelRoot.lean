import Fleta.Block
import Mathlib.Data.List.GetD
import Mathlib.Data.Set.Function

/-!
# The level root is binding

`BuildLevelRoot` hashes groups of sixteen hashes, three levels deep, and pads the last group
of a level with zero hashes. Where the double hash has no collision among the texts that are
hashed for two lists, and is never the zero hash there, the lists can be read back from
their roots: blocks of fixed size from a node, the end of a group from the padding, and a
level from its groups.
-/

namespace Fleta

open List

theorem flatMap_inj_of_length {ι α : Type} {indices : List ι} {left right : ι → List α}
    (size : ∀ i ∈ indices, (left i).length = (right i).length)
    (same : indices.flatMap left = indices.flatMap right) : ∀ i ∈ indices, left i = right i := by
  induction indices with
  | nil => simp
  | cons first rest ih =>
    obtain ⟨here, later⟩ := append_inj same (size first mem_cons_self)
    rw [forall_mem_cons]
    exact ⟨here, ih (fun i listed => size i (mem_cons_of_mem _ listed)) later⟩

/-- A hash that is not the zero hash. -/
structure IsHash (h : Hash256) : Prop where
  size : h.length = 32
  nonzero : h ≠ zeroHash

def nodeText (group : List Hash256) : Bytes :=
  (range hashPerLevel).flatMap fun i =>
    group.getD i zeroHash ++ (levelHashAppender.drop i).take 1

theorem getD_size {group : List Hash256} (hashes : ∀ h ∈ group, IsHash h) (i : Nat) :
    (group.getD i zeroHash).length = 32 := by
  by_cases inside : i < group.length
  · rw [getD_eq_getElem _ _ inside]
    exact (hashes _ (getElem_mem inside)).size
  · rw [getD_eq_default _ _ (not_lt.mp inside)]
    rfl

variable {left right : List Hash256}

/-- Where one group has a hash, the other has one too: its text would show the padding. -/
theorem length_le_of_getD (short : left.length ≤ hashPerLevel) (hashes : ∀ h ∈ left, IsHash h)
    (same : ∀ i < hashPerLevel, left.getD i zeroHash = right.getD i zeroHash) :
    left.length ≤ right.length := by
  by_contra longer
  have inside : right.length < left.length := by omega
  have padded := same right.length (by omega)
  rw [getD_eq_getElem _ _ inside, getD_eq_default _ _ (le_refl _)] at padded
  exact (hashes _ (getElem_mem inside)).nonzero padded

theorem nodeText_inj (leftShort : left.length ≤ hashPerLevel)
    (rightShort : right.length ≤ hashPerLevel) (leftHashes : ∀ h ∈ left, IsHash h)
    (rightHashes : ∀ h ∈ right, IsHash h) (same : nodeText left = nodeText right) :
    left = right := by
  have pieces := flatMap_inj_of_length (fun i _ => by
    rw [length_append, length_append, getD_size leftHashes, getD_size rightHashes]) same
  have blocks : ∀ i < hashPerLevel, left.getD i zeroHash = right.getD i zeroHash := by
    intro i inside
    exact append_inj_left (pieces i (mem_range.mpr inside))
      ((getD_size leftHashes i).trans (getD_size rightHashes i).symm)
  have length : left.length = right.length :=
    le_antisymm (length_le_of_getD leftShort leftHashes blocks)
      (length_le_of_getD rightShort rightHashes fun i inside => (blocks i inside).symm)
  apply ext_getElem length
  intro i insideLeft insideRight
  have block := blocks i (by omega)
  rwa [getD_eq_getElem _ _ insideLeft, getD_eq_getElem _ _ insideRight] at block

section Groups

variable {list : List Hash256}

theorem levelGroups_spec {fuel : Nat} (enough : list.length ≤ fuel) :
    (levelGroups fuel list).flatten = list ∧
      (levelGroups fuel list).length = (list.length + 15) / 16 := by
  induction fuel generalizing list with
  | zero => simp_all [levelGroups]
  | succ fuel ih =>
    cases list with
    | nil => exact ⟨rfl, rfl⟩
    | cons h rest =>
      have shorter : ((h :: rest).drop hashPerLevel).length ≤ fuel := by
        rw [length_drop]
        simp only [hashPerLevel, length_cons] at enough ⊢
        omega
      obtain ⟨whole, count⟩ := ih shorter
      rw [levelGroups, flatten_cons, whole, length_cons, count, length_drop]
      · refine ⟨take_append_drop .., ?_⟩
        simp only [hashPerLevel, length_cons]
        omega
      · simp

theorem levelGroups_short {fuel : Nat} :
    ∀ group ∈ levelGroups fuel list, group.length ≤ hashPerLevel := by
  induction fuel generalizing list with
  | zero => simp [levelGroups]
  | succ fuel ih =>
    cases list with
    | nil => simp [levelGroups]
    | cons h rest =>
      rw [levelGroups, forall_mem_cons]
      · exact ⟨length_take_le _ _, ih⟩
      · simp

theorem mem_of_mem_levelGroups {list group : List Hash256} {h : Hash256}
    (listed : group ∈ levelGroups list.length list) (mem : h ∈ group) : h ∈ list := by
  rw [← (levelGroups_spec (le_refl list.length)).1]
  exact mem_flatten.mpr ⟨group, listed, mem⟩

end Groups

section Levels

variable [HashFunction]

def levelAbove (list : List Hash256) : List Hash256 :=
  (levelGroups list.length list).map fun group => doubleHash (nodeText group)

def levelTexts (list : List Hash256) : Set Bytes :=
  {text | ∃ group ∈ levelGroups list.length list, nodeText group = text}

def rootTexts (list : List Hash256) : Set Bytes :=
  levelTexts list ∪ levelTexts (levelAbove list) ∪ levelTexts (levelAbove (levelAbove list)) ∪
    {nodeText (levelAbove (levelAbove (levelAbove list)))}

theorem hash16_eq_ok {group : List Hash256} (short : group.length ≤ hashPerLevel) :
    hash16 group = .ok (doubleHash (nodeText group)) :=
  if_neg (not_lt.mpr short)

variable (list : List Hash256)

theorem buildLevel_eq_ok : buildLevel list = .ok (levelAbove list) := by
  have groups : ∀ groups : List (List Hash256), (∀ group ∈ groups, group.length ≤ hashPerLevel) →
      groups.mapM hash16 = .ok (groups.map fun group => doubleHash (nodeText group)) := by
    intro groups short
    induction groups with
    | nil => rfl
    | cons group rest ih =>
      rw [forall_mem_cons] at short
      rw [mapM_cons, hash16_eq_ok short.1, ih short.2]
      rfl
  exact groups _ levelGroups_short

theorem length_levelAbove : (levelAbove list).length = (list.length + 15) / 16 := by
  rw [levelAbove, length_map, (levelGroups_spec (le_refl _)).2]

theorem buildLevelRoot_eq_ok {list : List Hash256} (some : 1 ≤ list.length)
    (few : list.length ≤ 65536) :
    buildLevelRoot list =
      .ok (doubleHash (nodeText (levelAbove (levelAbove (levelAbove list))))) := by
  have short : (levelAbove (levelAbove (levelAbove list))).length ≤ hashPerLevel := by
    simp only [length_levelAbove, hashPerLevel]
    omega
  unfold buildLevelRoot
  rw [if_neg (by omega), if_neg (by omega), buildLevel_eq_ok]
  change (buildLevel (levelAbove list) >>= fun lv2 => buildLevel lv2 >>= hash16) = _
  rw [buildLevel_eq_ok]
  change (buildLevel (levelAbove (levelAbove list)) >>= hash16) = _
  rw [buildLevel_eq_ok]
  exact hash16_eq_ok short

/-- On the texts in the set, the double hash has no collision and is a hash. -/
structure Binding (texts : Set Bytes) : Prop where
  injective : Set.InjOn doubleHash texts
  hash : ∀ text ∈ texts, IsHash (doubleHash text)

variable {texts : Set Bytes} {left right : List Hash256}

theorem Binding.levelAbove_hashes (binding : Binding texts) (within : levelTexts left ⊆ texts) :
    ∀ h ∈ levelAbove left, IsHash h := by
  intro h listed
  obtain ⟨group, grouped, rfl⟩ := mem_map.mp listed
  exact binding.hash _ (within ⟨group, grouped, rfl⟩)

theorem Binding.levelAbove_inj (binding : Binding texts) (leftWithin : levelTexts left ⊆ texts)
    (rightWithin : levelTexts right ⊆ texts) (leftHashes : ∀ h ∈ left, IsHash h)
    (rightHashes : ∀ h ∈ right, IsHash h) (same : levelAbove left = levelAbove right) :
    left = right := by
  have groups : levelGroups left.length left = levelGroups right.length right := by
    have length := congrArg length same
    rw [levelAbove, levelAbove, length_map, length_map] at length
    apply ext_getElem length
    intro i insideLeft insideRight
    have listedLeft := getElem_mem insideLeft
    have listedRight := getElem_mem insideRight
    have hashed : doubleHash (nodeText (levelGroups left.length left)[i]) =
        doubleHash (nodeText (levelGroups right.length right)[i]) := by
      simpa [levelAbove] using getElem_of_eq same (by simpa [levelAbove] using insideLeft)
    apply nodeText_inj (levelGroups_short _ listedLeft) (levelGroups_short _ listedRight)
    · exact fun h mem => leftHashes h (mem_of_mem_levelGroups listedLeft mem)
    · exact fun h mem => rightHashes h (mem_of_mem_levelGroups listedRight mem)
    · exact binding.injective (leftWithin ⟨_, listedLeft, rfl⟩) (rightWithin ⟨_, listedRight, rfl⟩)
        hashed
  rw [← (levelGroups_spec (le_refl left.length)).1, groups, (levelGroups_spec (le_refl _)).1]

theorem Binding.root_inj (binding : Binding (rootTexts left ∪ rootTexts right))
    (leftFew : left.length ≤ 65536) (rightFew : right.length ≤ 65536)
    (leftHashes : ∀ h ∈ left, IsHash h) (rightHashes : ∀ h ∈ right, IsHash h)
    (same : doubleHash (nodeText (levelAbove (levelAbove (levelAbove left)))) =
      doubleHash (nodeText (levelAbove (levelAbove (levelAbove right))))) : left = right := by
  have short : ∀ list : List Hash256, list.length ≤ 65536 →
      (levelAbove (levelAbove (levelAbove list))).length ≤ hashPerLevel := by
    intro list few
    simp only [length_levelAbove, hashPerLevel]
    omega
  have leftTexts : rootTexts left ⊆ rootTexts left ∪ rootTexts right := Set.subset_union_left
  have rightTexts : rootTexts right ⊆ rootTexts left ∪ rootTexts right := Set.subset_union_right
  have third : ∀ {list}, levelTexts list ⊆ rootTexts list :=
    fun mem => .inl (.inl (.inl mem))
  have second : ∀ {list}, levelTexts (levelAbove list) ⊆ rootTexts list :=
    fun mem => .inl (.inl (.inr mem))
  have first : ∀ {list}, levelTexts (levelAbove (levelAbove list)) ⊆ rootTexts list :=
    fun mem => .inl (.inr mem)
  -- The lists of a level are hashes, because they are hashed from the texts below.
  have leftThird := binding.levelAbove_hashes (third.trans leftTexts)
  have rightThird := binding.levelAbove_hashes (third.trans rightTexts)
  have leftSecond := binding.levelAbove_hashes (second.trans leftTexts)
  have rightSecond := binding.levelAbove_hashes (second.trans rightTexts)
  have leftFirst := binding.levelAbove_hashes (first.trans leftTexts)
  have rightFirst := binding.levelAbove_hashes (first.trans rightTexts)
  have texts := binding.injective (leftTexts (.inr rfl)) (rightTexts (.inr rfl)) same
  apply binding.levelAbove_inj (third.trans leftTexts) (third.trans rightTexts) leftHashes rightHashes
  apply binding.levelAbove_inj (second.trans leftTexts) (second.trans rightTexts) leftThird rightThird
  apply binding.levelAbove_inj (first.trans leftTexts) (first.trans rightTexts) leftSecond rightSecond
  exact nodeText_inj (short left leftFew) (short right rightFew) leftFirst rightFirst texts

/-- `BuildLevelRoot` succeeds on one to 65536 hashes, and lists with equal roots are equal,
when the double hash has no collision and is not zero on the texts hashed for the lists. -/
theorem buildLevelRoot_binding (size : ∀ data : Bytes, (doubleHash data).length = 32)
    (left right : List Hash256) (leftSome : 1 ≤ left.length) (leftFew : left.length ≤ 65536)
    (leftHashes : ∀ h ∈ left, IsHash h) (rightSome : 1 ≤ right.length)
    (rightFew : right.length ≤ 65536) (rightHashes : ∀ h ∈ right, IsHash h)
    (injective : Set.InjOn doubleHash (rootTexts left ∪ rootTexts right))
    (nonzero : ∀ text ∈ rootTexts left ∪ rootTexts right, doubleHash text ≠ zeroHash) :
    ∃ leftRoot rightRoot, buildLevelRoot left = .ok leftRoot ∧
      buildLevelRoot right = .ok rightRoot ∧ (leftRoot = rightRoot → left = right) := by
  have binding : Binding (rootTexts left ∪ rootTexts right) :=
    ⟨injective, fun text mem => ⟨size text, nonzero text mem⟩⟩
  exact ⟨_, _, buildLevelRoot_eq_ok leftSome leftFew, buildLevelRoot_eq_ok rightSome rightFew,
    binding.root_inj leftFew rightFew leftHashes rightHashes⟩

end Levels

namespace LevelRootInstances

scoped instance : HashFunction where
  hash bytes := copyInto 32 bytes

def constantHash (byte : UInt8) : Hash256 := replicate 32 byte

theorem doubleHash_node (byte : UInt8) :
    doubleHash (nodeText [constantHash byte]) = constantHash byte := by
  have size : (constantHash byte).length = 32 := length_replicate
  have first : ∀ rest, copyInto 32 (constantHash byte ++ rest) = constantHash byte := by
    intro rest
    rw [copyInto, take_left' size, length_append, size, Nat.sub_eq_zero_of_le (by omega)]
    exact append_nil _
  have text : ∃ rest, nodeText [constantHash byte] = constantHash byte ++ rest := by
    rw [nodeText, show range hashPerLevel = 0 :: range' 1 15 from rfl,
      flatMap_cons, append_assoc]
    exact ⟨_, rfl⟩
  obtain ⟨rest, text⟩ := text
  have again := first []
  rw [append_nil] at again
  change copyInto 32 (copyInto 32 _) = _
  rw [text, first, again]

theorem mem_rootTexts {byte : UInt8} {text : Bytes} (mem : text ∈ rootTexts [constantHash byte]) :
    text = nodeText [constantHash byte] := by
  have above : levelAbove [constantHash byte] = [constantHash byte] := by
    simp [levelAbove, levelGroups, hashPerLevel, doubleHash_node]
  have level : ∀ text ∈ levelTexts [constantHash byte], text = nodeText [constantHash byte] := by
    rintro text ⟨group, grouped, rfl⟩
    have only : levelGroups 1 [constantHash byte] = [[constantHash byte]] := rfl
    change group ∈ levelGroups 1 _ at grouped
    rw [only, mem_singleton] at grouped
    rw [grouped]
  simp only [rootTexts, above] at mem
  rcases mem with ((mem | mem) | mem) | mem
  · exact level text mem
  · exact level text mem
  · exact level text mem
  · exact mem

theorem constantHash_isHash {byte : UInt8} (nonzero : byte ≠ 0) : IsHash (constantHash byte) :=
  ⟨rfl, fun same => nonzero (cons.inj same).1⟩

/-- Two different hashes have different roots. -/
theorem two_hashes_binding : ∃ leftRoot rightRoot,
    buildLevelRoot [constantHash 1] = .ok leftRoot ∧
      buildLevelRoot [constantHash 2] = .ok rightRoot ∧
      (leftRoot = rightRoot → [constantHash 1] = [constantHash 2]) := by
  have texts : ∀ text ∈ rootTexts [constantHash 1] ∪ rootTexts [constantHash 2],
      text = nodeText [constantHash 1] ∨ text = nodeText [constantHash 2] :=
    fun text mem => mem.imp mem_rootTexts mem_rootTexts
  apply buildLevelRoot_binding (fun _ => length_copyInto _ _) [constantHash 1] [constantHash 2]
    (by decide) (by decide) (by simpa using constantHash_isHash (by decide)) (by decide) (by decide)
    (by simpa using constantHash_isHash (by decide))
  · intro text mem other otherMem same
    rcases texts text mem with rfl | rfl <;> rcases texts other otherMem with rfl | rfl
    case inl.inl | inr.inr => rfl
    all_goals
      rw [doubleHash_node, doubleHash_node] at same
      exact absurd same (by decide)
  · intro text mem
    rcases texts text mem with rfl | rfl <;>
    · rw [doubleHash_node]
      exact (constantHash_isHash (by decide)).nonzero

end LevelRootInstances

end Fleta
