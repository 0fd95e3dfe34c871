import Fleta.PileRead

/-!
# The database of piles

`DB` keeps one pile for each chunk of heights, and opens a new one when the last is full.
`Represents gen es db` says that the piles of the database hold the chunks of the entries
`es`, and every append keeps that. The heights are 32-bit words: the chunk that would begin
at 829 times the unit has no valid first height, so at most that many entries are ever
appended.
-/

namespace Fleta

open ByteOrder Pile List UInt32

structure DB where
  piles : List Pile
  genHash : Hash256

namespace DB

def empty : DB := ⟨[], replicate 32 0⟩

def init (genHash : Hash256) (db : DB) : Except Err DB :=
  if db.piles ≠ [] then .error .alreadyInitialized
  else
    match newPile genHash 0 with
    | .error err => .error err
    | .ok p => .ok ⟨db.piles ++ [p], genHash⟩

def close (db : DB) : List File := db.piles.map file

def lookup (beginHeight : UInt32) (piles : List Pile) : Option Pile :=
  piles.reverse.find? fun p => p.beginHeight == beginHeight

def requirePile (loaded : List Pile) (i : Nat) : Except Err Pile :=
  match lookup (ofNat i * chunkUnit) loaded with
  | some p => .ok p
  | none => .error .missingPile

def maxHeight (piles : List Pile) : UInt32 :=
  piles.foldl (fun height p => if height < p.headHeight then p.headHeight else height) 0

/-- The files are those of the directory, in the order of the walk over it. -/
def openDB (files : List File) : Except Err DB := do
  let loaded ← files.mapM loadPile
  let height := maxHeight loaded
  let count := height / chunkUnit + 1
  let piles ← if height > 0 then (range count.toNat).mapM (requirePile loaded) else .ok []
  return ⟨piles, (piles.head?.map Pile.genHash).getD (replicate 32 0)⟩

section Append

variable [Gzip]

def appendLast (height : UInt32) (dataHash : Hash256) (datas : List Bytes) (front : List Pile)
    (p : Pile) (db : DB) : Except Err Unit × DB :=
  let (result, p) := p.appendData height dataHash datas
  (result, { db with piles := front ++ [p] })

def appendData (height : UInt32) (dataHash : Hash256) (datas : List Bytes) (db : DB) :
    Except Err Unit × DB :=
  if 255 < datas.length then (.error .exceedMaximumDataArrayLength, db)
  else
    match db.piles.getLast? with
    | none => (.error .panicked, db)
    | some p =>
      if height ≠ p.headHeight + 1 then (.error .invalidAppendHeight, db)
      else if p.headHeight - p.beginHeight ≥ chunkUnit then
        match newPile db.genHash (p.beginHeight + chunkUnit) with
        | .error err => (.error err, db)
        | .ok v => db.appendLast height dataHash datas db.piles v
      else db.appendLast height dataHash datas db.piles.dropLast p

end Append

def pileOf (height : UInt32) (db : DB) : Except Err Pile :=
  match db.piles[((height - 1) / chunkUnit).toNat]? with
  | some p => .ok p
  | none => .error .invalidPileHeight

def getHash (height : UInt32) (db : DB) : Except Err Hash256 :=
  if height = 0 then
    match db.piles.head? with
    | some p => .ok p.genHash
    | none => .error .invalidPileHeight
  else do
    let p ← db.pileOf height
    p.getHash height

section Read

variable [Gzip]

def getData (height : UInt32) (index : Nat) (db : DB) : Except Err Bytes :=
  if height = 0 then .error .invalidPileHeight
  else do
    let p ← db.pileOf height
    p.getData height index

def getDatas (height : UInt32) (start count : Nat) (db : DB) : Except Err Bytes :=
  if height = 0 then .error .invalidPileHeight
  else do
    let p ← db.pileOf height
    p.getDatas height start count

end Read

def chunk (k : Nat) (es : List Entry) : List Entry :=
  (es.drop (k * chunkUnit.toNat)).take chunkUnit.toNat

def pileCount (n : Nat) : Nat := (n - 1) / chunkUnit.toNat + 1

theorem length_chunk (k : Nat) (es : List Entry) :
    (chunk k es).length = min chunkUnit.toNat (es.length - k * chunkUnit.toNat) := by
  rw [chunk, length_take, length_drop]

variable {es : List Entry} {k : Nat}

theorem chunk_append_before (e : Entry)
    (full : (k + 1) * chunkUnit.toNat ≤ es.length) : chunk k (es ++ [e]) = chunk k es := by
  rw [Nat.succ_mul] at full
  rw [chunk, drop_append_of_le_length (by omega), take_append_of_le_length, chunk]
  rw [length_drop]
  omega

theorem chunk_append_last (e : Entry) (start : k * chunkUnit.toNat ≤ es.length)
    (room : es.length < (k + 1) * chunkUnit.toNat) :
    chunk k (es ++ [e]) = chunk k es ++ [e] := by
  rw [Nat.succ_mul] at room
  have short : (es.drop (k * chunkUnit.toNat)).length < chunkUnit.toNat := by
    rw [length_drop]
    omega
  rw [chunk, drop_append_of_le_length start, chunk,
    take_of_length_le (by rw [length_append, length_singleton]; omega),
    take_of_length_le (Nat.le_of_lt short)]

variable [Gzip]

structure Represents (gen : Hash256) (es : List Entry) (db : DB) : Prop where
  genHash : db.genHash = gen
  count : db.piles.length = pileCount es.length
  piles : ∀ (k : Nat) (p : Pile), db.piles[k]? = some p →
    p.Holds gen (ofNat (k * chunkUnit.toNat)) (chunk k es)
  bound : db.piles.length ≤ 829
  items : ∀ e ∈ es, e.datas.length < 256

theorem init_represents {gen : Hash256} {db : DB} (size : gen.length = 32)
    (done : empty.init gen = .ok db) : db.Represents gen [] := by
  have aligned : (0 : UInt32) % chunkUnit = 0 := by decide
  obtain ⟨p, made, holds⟩ := newPile_holds size aligned
  rw [init, made] at done
  cases done
  refine ⟨rfl, rfl, ?_, (by decide : 1 ≤ 829), fun e mem => by cases mem⟩
  intro k p' at_k
  cases k with
  | zero =>
    cases at_k
    simpa [chunk] using holds
  | succ k => cases at_k

omit [Gzip] in
theorem toNat_base (below : k ≤ 828) :
    (ofNat (k * chunkUnit.toNat)).toNat = k * chunkUnit.toNat := by
  rw [toNat_ofNat', chunkUnit_toNat]
  omega

section Step

variable {gen : Hash256} {es : List Entry} {db : DB}

structure Last (es : List Entry) (k : Nat) (p : Pile) (db : DB) : Prop where
  found : db.piles.getLast? = some p
  at_k : db.piles[k]? = some p
  count : db.piles.length = k + 1
  start : k * chunkUnit.toNat ≤ es.length
  stop : es.length ≤ (k + 1) * chunkUnit.toNat
  length : (chunk k es).length = es.length - k * chunkUnit.toNat
  head : p.headHeight = ofNat es.length

theorem Represents.last (rep : db.Represents gen es) : ∃ k p, db.Last es k p := by
  have count := rep.count
  unfold pileCount at count
  have unit := chunkUnit_toNat
  have start : (es.length - 1) / chunkUnit.toNat * chunkUnit.toNat ≤ es.length :=
    Nat.le_trans (Nat.div_mul_le_self _ _) (Nat.sub_le _ _)
  have stop : es.length ≤ ((es.length - 1) / chunkUnit.toNat + 1) * chunkUnit.toNat := by
    rw [unit]
    omega
  generalize (es.length - 1) / chunkUnit.toNat = k at count start stop
  have below : k < db.piles.length := by omega
  have at_k : db.piles[k]? = some db.piles[k] := getElem?_eq_getElem below
  have length : (chunk k es).length = es.length - k * chunkUnit.toNat := by
    rw [length_chunk]
    rw [Nat.succ_mul] at stop
    omega
  refine ⟨k, db.piles[k], ?_, at_k, count, start, stop, length, ?_⟩
  · rw [getLast?_eq_getElem?, count, Nat.add_sub_cancel]
    exact at_k
  · rw [(rep.piles k _ at_k).headHeight, length, ← ofNat_add]
    congr 1
    omega

variable {p : Pile} {e : Entry} {k : Nat} {front : List Pile}

theorem Represents.push (rep : db.Represents gen es) (length : front.length = k)
    (old : ∀ (j : Nat) (q : Pile), front[j]? = some q → db.piles[j]? = some q)
    (start : k * chunkUnit.toNat ≤ es.length)
    (room : es.length < (k + 1) * chunkUnit.toNat) (bound : k < 829) (count : e.datas.length < 256)
    (holds : p.Holds gen (ofNat (k * chunkUnit.toNat)) (chunk k es ++ [e])) :
    Represents gen (es ++ [e]) { db with piles := front ++ [p] } := by
  refine ⟨rep.genHash, ?_, ?_, ?_, ?_⟩
  · have number : es.length / chunkUnit.toNat = k := Nat.div_eq_of_lt_le start room
    rw [length_append, length, length_singleton, pileCount, length_append,
      length_singleton, Nat.add_sub_cancel, number]
  · intro j q at_j
    by_cases before : j < k
    · rw [getElem?_append_left (by omega)] at at_j
      rw [chunk_append_before e]
      · exact rep.piles j q (old j q at_j)
      · exact Nat.le_trans (Nat.mul_le_mul_right _ before) start
    · have here : j = k := by
        have below := (List.getElem?_eq_some_iff.mp at_j).1
        rw [length_append, length, length_singleton] at below
        omega
      rw [here, ← length, getElem?_concat_length] at at_j
      cases at_j
      rw [here, chunk_append_last e start room]
      exact holds
  · rw [length_append, length, length_singleton]
    exact bound
  · intro e' mem
    rw [mem_append, mem_singleton] at mem
    cases mem with
    | inl known => exact rep.items e' known
    | inr new => rwa [new]

omit [Gzip] in
/-- The chunk behind the last height has no valid first height. -/
theorem aligned_bound (below : k ≤ 829)
    (aligned : ofNat (k * chunkUnit.toNat) % chunkUnit = 0) : k < 829 := by
  apply Nat.lt_of_le_of_ne below
  intro last
  rw [last] at aligned
  exact absurd aligned (by decide)

variable {height : UInt32} {db' : DB}

theorem appendLast_ok (done : db.appendLast height e.dataHash e.datas front p = (.ok (), db')) :
    ∃ p', p.appendData height e.dataHash e.datas = (.ok (), p') ∧
      db' = { db with piles := front ++ [p'] } := by
  unfold appendLast at done
  cases step : p.appendData height e.dataHash e.datas with
  | mk result p' =>
    rw [step] at done
    cases done
    exact ⟨p', rfl, rfl⟩

theorem Represents.full_last (rep : db.Represents gen es)
    (last : db.Last es k p) (full : p.headHeight - p.beginHeight ≥ chunkUnit) :
    es.length = (k + 1) * chunkUnit.toNat ∧
      p.beginHeight + chunkUnit = ofNat ((k + 1) * chunkUnit.toNat) := by
  have holds := rep.piles k p last.at_k
  rw [ge_iff_le, le_iff_toNat_le, holds.count, last.length] at full
  constructor
  · have start := last.start
    have stop := last.stop
    rw [Nat.succ_mul] at stop ⊢
    omega
  · rw [holds.beginHeight, Nat.succ_mul, UInt32.ofNat_add, UInt32.ofNat_toNat]

/-- The entry goes to the last pile, or to a new one if the last is full. -/
theorem Represents.appendData_cases (rep : db.Represents gen es) (last : db.Last es k p)
    (done : db.appendData height e.dataHash e.datas = (.ok (), db')) :
    height = ofNat (es.length + 1) ∧ e.datas.length < 256 ∧
      ((chunk k es).length < chunkUnit.toNat ∧
          (∃ p', p.appendData height e.dataHash e.datas = (.ok (), p') ∧
            db' = { db with piles := db.piles.dropLast ++ [p'] }) ∨
        es.length = (k + 1) * chunkUnit.toNat ∧
          ∃ v p', newPile gen (ofNat ((k + 1) * chunkUnit.toNat)) = .ok v ∧
            v.appendData height e.dataHash e.datas = (.ok (), p') ∧
            db' = { db with piles := db.piles ++ [p'] }) := by
  have holds := rep.piles k p last.at_k
  rw [appendData, last.found] at done
  dsimp only at done
  split at done
  · cases done
  split at done
  · cases done
  rename_i next
  rw [Classical.not_not] at next
  refine ⟨by rw [next, last.head, ofNat_add]; rfl, by omega, ?_⟩
  split at done
  · rename_i full
    obtain ⟨length, base⟩ := rep.full_last last full
    rw [base, rep.genHash] at done
    cases made : newPile gen (ofNat ((k + 1) * chunkUnit.toNat)) with
    | error err =>
      rw [made] at done
      cases done
    | ok v =>
      rw [made] at done
      obtain ⟨p', step, result⟩ := appendLast_ok done
      exact .inr ⟨length, v, p', rfl, step, result⟩
  · rename_i notFull
    rw [ge_iff_le, le_iff_toNat_le, holds.count] at notFull
    exact .inl ⟨by omega, appendLast_ok done⟩

theorem appendData_represents (size : gen.length = 32) (rep : db.Represents gen es)
    (done : db.appendData height e.dataHash e.datas = (.ok (), db')) :
    height = ofNat (es.length + 1) ∧ db'.Represents gen (es ++ [e]) := by
  obtain ⟨k, p, last⟩ := rep.last
  obtain ⟨next, few, same | new⟩ := rep.appendData_cases last done
  · refine ⟨next, ?_⟩
    obtain ⟨room, p', step, result⟩ := same
    have length := last.length
    have count := last.count
    have bound := rep.bound
    rw [result]
    apply rep.push (k := k) _ _ last.start _ (by omega) few
      (appendData_holds (rep.piles k p last.at_k) room step).2
    · rw [length_dropLast, count, Nat.add_sub_cancel]
    · intro j q at_j
      rw [getElem?_dropLast] at at_j
      split at at_j
      · exact at_j
      · cases at_j
    · rw [Nat.succ_mul]
      omega
  · refine ⟨next, ?_⟩
    obtain ⟨length, v, p', made, step, result⟩ := new
    have aligned := aligned_of_newPile made
    obtain ⟨v', made', fresh⟩ := newPile_holds size aligned
    cases made.symm.trans made'
    have nothing : chunk (k + 1) es = [] := by
      apply eq_nil_of_length_eq_zero
      rw [length_chunk, length, Nat.sub_self, Nat.min_zero]
    rw [result]
    apply rep.push (k := k + 1) last.count (fun j q at_j => at_j) (Nat.le_of_eq length.symm) _
      (aligned_bound (by rw [← last.count]; exact rep.bound) aligned) few
    · rw [nothing]
      exact (appendData_holds fresh (by decide) step).2
    · rw [length, Nat.succ_mul (k + 1), chunkUnit_toNat]
      omega

def Room (datas : List Bytes) (db : DB) : Prop :=
  ∀ p : Pile, db.piles.getLast? = some p →
    (if p.headHeight - p.beginHeight ≥ chunkUnit then chunkHeaderSize else p.file.size) +
      totalLen datas ≤ maxFileSize

instance (datas : List Bytes) (db : DB) : Decidable (db.Room datas) :=
  inferInstanceAs (Decidable (∀ p : Pile, p ∈ db.piles.getLast? → _))

theorem Represents.appendData_accepts (rep : db.Represents gen es)
    (size : gen.length = 32) (below : es.length < 829 * chunkUnit.toNat)
    (few : e.datas.length ≤ 255) (room : db.Room e.datas) :
    ∃ db', db.appendData (ofNat (es.length + 1)) e.dataHash e.datas = (.ok (), db') := by
  obtain ⟨k, p, last⟩ := rep.last
  have holds := rep.piles k p last.at_k
  have next : ofNat (es.length + 1) = p.headHeight + 1 := by
    rw [last.head, ofNat_add]
    rfl
  have position := holds.count
  have stored := holds.stores.size
  have fits := room p last.found
  rw [appendData, if_neg (by omega), last.found]
  dsimp only
  rw [if_neg (not_not_intro next)]
  by_cases full : p.headHeight - p.beginHeight ≥ chunkUnit
  · rw [if_pos full] at fits ⊢
    obtain ⟨length, base⟩ := rep.full_last last full
    rw [length] at below
    have early : k + 1 < 829 := Nat.lt_of_mul_lt_mul_right below
    have aligned : ofNat ((k + 1) * chunkUnit.toNat) % chunkUnit = 0 := by
      apply UInt32.toNat_inj.mp
      rw [UInt32.toNat_mod, toNat_base (by omega), Nat.mul_mod_left]
      rfl
    obtain ⟨v, made, fresh⟩ := newPile_holds size aligned
    have head : p.headHeight = v.headHeight := by
      rw [last.head, fresh.headHeight, length]
      exact (UInt32.add_zero _).symm
    obtain ⟨v', accepted⟩ := Pile.appendData_accepts fresh (e := e) (by decide) fits
    rw [base, rep.genHash, made, next, head]
    dsimp only
    rw [appendLast, accepted]
    exact ⟨_, rfl⟩
  · rw [if_neg full] at fits ⊢
    rw [ge_iff_le, le_iff_toNat_le, position] at full
    obtain ⟨p', accepted⟩ := Pile.appendData_accepts holds (e := e) (by omega) (by omega)
    rw [appendLast, next, accepted]
    exact ⟨_, rfl⟩

end Step

/-- The entries were appended by successful calls, whatever the heights they were given. -/
inductive Appended (db : DB) : List Entry → DB → Prop where
  | nil : Appended db [] db
  | snoc {es : List Entry} {db' db'' : DB} (height : UInt32) (e : Entry) :
      Appended db es db' → db'.appendData height e.dataHash e.datas = (.ok (), db'') →
      Appended db (es ++ [e]) db''

theorem Appended.represents {gen : Hash256} {es₀ : List Entry} {db db' : DB}
    (size : gen.length = 32) (run : db.Appended es db') (rep : db.Represents gen es₀) :
    db'.Represents gen (es₀ ++ es) := by
  induction run with
  | nil => rwa [append_nil]
  | snoc height e _ done ih =>
    rw [← append_assoc]
    exact (appendData_represents size ih done).2

end DB

end Fleta
