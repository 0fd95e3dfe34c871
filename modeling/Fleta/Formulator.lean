import Fleta.IndexTable
import Fleta.Vault

/-!
# The formulator process: staking

Staked amounts are account data of the hyper formulator, pending unstaked amounts are
process data, one map from hyper formulators to amounts for every height and staker. Both
are listed in index tables of addresses: a number under every address, an address under
every number, and the count. An address is removed by putting the last one in its place.
-/

namespace Fleta

open ByteOrder Script SortedMap

variable {Acc Ev : Type}

/-- The fields of a formulator account that staking reads. -/
structure Formulation where
  formulatorType : UInt8
  isRevoked : Bool
  stakingAmount : Int
  minimumStaking : Int

def hyperFormulatorType : UInt8 := 4

class FormulatorAccounts (Acc : Type) where
  formulator : Acc → Option Formulation
  withStaking : Int → Acc → Acc
  validate : Acc → List PublicHash → Except Err Unit

/-- An array of pairs of byte strings, as the msgpack package writes it. -/
class PairsCodec where
  encode : List (Bytes × Bytes) → Bytes
  decode : Bytes → Except Err (List (Bytes × Bytes))

class LawfulPairsCodec [PairsCodec] : Prop where
  decode_encode : ∀ pairs : List (Bytes × Bytes),
    PairsCodec.decode (PairsCodec.encode pairs) = .ok pairs
  encode_ne_nil : ∀ pairs, PairsCodec.encode pairs ≠ []

namespace AmountMap

def leave (hyper : Address) (sum : Int) (mp : SortedMap Address Int) : SortedMap Address Int :=
  if sum = 0 then mp.delete hyper else mp.put hyper sum

theorem get_leave_self (hyper : Address) (sum : Int) (mp : SortedMap Address Int) :
    ((leave hyper sum mp).get hyper).getD 0 = sum := by
  unfold leave
  split
  · rename_i zero
    simp [zero]
  · simp

theorem get_leave_of_ne {hyper other : Address} (different : hyper ≠ other) (sum : Int)
    (mp : SortedMap Address Int) : (leave hyper sum mp).get other = mp.get other := by
  unfold leave
  split
  · exact get_delete_of_ne mp different
  · exact get_put_of_ne mp sum different

theorem len_leave_eq_zero {hyper : Address} {sum am : Int} {mp : SortedMap Address Int}
    (found : mp.get hyper = some sum) :
    (leave hyper (sum - am) mp).len = 0 ↔ mp = empty.put hyper am := by
  rw [len_eq_zero, leave]
  constructor
  · intro empty
    split at empty
    · rename_i zero
      apply ext_get
      intro other
      rw [get_put]
      split
      · rename_i same
        rw [← same, found, sub_eq_zero.mp zero]
      · rename_i different
        rw [← get_delete_of_ne mp different, empty]
    · have held := get_put_self mp hyper (sum - am)
      rw [empty, get_empty] at held
      cases held
  · rintro rfl
    rw [get_put_self, Option.some.injEq] at found
    rw [if_pos (by omega)]
    apply ext_get
    intro other
    rw [get_delete, get_put]
    split <;> simp

variable [PairsCodec]

def marshal (mp : SortedMap Address Int) : Bytes :=
  PairsCodec.encode (mp.eachAll.map fun (addr, am) => (addr.bytes, Amount.toBytes am))

def ofPairs (pairs : List (Bytes × Bytes)) : SortedMap Address Int :=
  pairs.foldl (fun mp (addr, am) => mp.put (Database.addressOf addr) (Amount.ofBytes am)) .empty

def unmarshal (bs : Bytes) : Except Err (SortedMap Address Int) :=
  match PairsCodec.decode bs with
  | .ok pairs => .ok (ofPairs pairs)
  | .error err => .error err

omit [PairsCodec] in
theorem ofPairs_nonneg (pairs : List (Bytes × Bytes)) (addr : Address) :
    ∀ am, (ofPairs pairs).get addr = some am → 0 ≤ am := by
  apply List.foldlRecOn (motive := fun mp : SortedMap Address Int =>
    ∀ am, mp.get addr = some am → 0 ≤ am)
  · simp
  · intro mp nonneg pair _ am found
    rw [get_put] at found
    split at found
    · cases found
      exact Amount.ofBytes_nonneg _
    · exact nonneg am found

theorem unmarshal_nonneg {bs : Bytes} {mp : SortedMap Address Int} (decoded : unmarshal bs = .ok mp)
    {addr : Address} {am : Int} (found : mp.get addr = some am) : 0 ≤ am := by
  unfold unmarshal at decoded
  split at decoded
  · cases decoded
    exact ofPairs_nonneg _ addr am found
  · cases decoded

variable [LawfulPairsCodec] (mp : SortedMap Address Int)

theorem marshal_ne_nil : marshal mp ≠ [] :=
  LawfulPairsCodec.encode_ne_nil _

theorem unmarshal_marshal :
    ∃ mp', unmarshal (marshal mp) = .ok mp' ∧
      ∀ addr, mp'.get addr = (mp.get addr).map fun am => (am.natAbs : Int) := by
  refine ⟨_, by rw [unmarshal, marshal, LawfulPairsCodec.decode_encode], ?_⟩
  intro addr
  rw [ofPairs, List.foldl_map, get_foldl_eachAll _ addr addr (fun am _ => some (am.natAbs : Int))]
  · cases mp.get addr <;> simp
  · intro mp entry
    simp [get_put, Amount.ofBytes_toBytes]

end AmountMap

/-- `StakingUnlockRequiredBlocks` of the hyper policy. -/
class HyperPolicyCodec where
  stakingUnlockRequiredBlocks : Bytes → Except Err UInt32

structure Formulator where
  pid : UInt8
  vault : Vault
  distinct : pid ≠ vault.pid

structure Index (Acc Ev : Type) extends IndexKeys where
  read : Bytes → Script Acc Ev Bytes
  write : Bytes → Bytes → Script Acc Ev Unit

namespace Index

variable (table : Index Acc Ev)

def count : Script Acc Ev UInt32 := do
  let bs ← table.read table.countKey
  return if bs.length > 0 then uint32Of bs else 0

def add (addr : Address) : Script Acc Ev Unit := do
  let ns ← table.read (table.numberKey addr)
  if ns.length = 0 then
    let count ← table.count
    table.write (table.numberKey addr) (uint32Bytes count)
    table.write (table.reverseKey count) addr.bytes
    table.write table.countKey (uint32Bytes (count + 1))

/-- `ns` is the number that the table holds for the address. -/
def remove (addr : Address) (ns : Bytes) : Script Acc Ev Unit := do
  let count ← table.count
  let number := uint32Of ns
  if number ≠ count - 1 then
    let bs ← table.read (table.reverseKey (count - 1))
    let swapAddr := Database.addressOf bs
    table.write (table.reverseKey number) swapAddr.bytes
    table.write (table.numberKey swapAddr) (uint32Bytes number)
  table.write (table.numberKey addr) []
  table.write (table.reverseKey (count - 1)) []
  if count - 1 = 0 then table.write table.countKey []
  else table.write table.countKey (uint32Bytes (count - 1))

def drop (addr : Address) : Script Acc Ev Unit := do
  let ns ← table.read (table.numberKey addr)
  if ns.length > 0 then table.remove addr ns

/-- A property of scripts that sequences keep, and the reads and the writes of the table have. -/
structure Closed (holds : (α : Type) → Script Acc Ev α → Prop) : Prop where
  bind : ∀ {α β : Type} {script : Script Acc Ev α} {rest : α → Script Acc Ev β},
    holds α script → (∀ result, holds β (rest result)) → holds β (script >>= rest)
  pure : ∀ {α : Type} (result : α), holds α (Pure.pure result)
  read : ∀ name, holds Bytes (table.read name)
  number : ∀ addr value, holds Unit (table.write (table.numberKey addr) value)
  reverse : ∀ num value, holds Unit (table.write (table.reverseKey num) value)
  total : ∀ value, holds Unit (table.write table.countKey value)

namespace Closed

variable {table} {holds : (α : Type) → Script Acc Ev α → Prop} (closed : table.Closed holds)

include closed

theorem count : holds UInt32 table.count :=
  closed.bind (closed.read _) fun _ => closed.pure _

variable (addr : Address)

theorem add : holds Unit (table.add addr) := by
  apply closed.bind (closed.read _)
  intro ns
  split
  · apply closed.bind closed.count
    intro count
    apply closed.bind (closed.number addr _)
    intro _
    apply closed.bind (closed.reverse count _)
    intro _
    exact closed.total _
  · exact closed.pure ()

theorem remove (ns : Bytes) : holds Unit (table.remove addr ns) := by
  apply closed.bind closed.count
  intro count
  have cleared : holds Unit (do
      table.write (table.numberKey addr) []
      table.write (table.reverseKey (count - 1)) []
      if count - 1 = 0 then table.write table.countKey []
      else table.write table.countKey (uint32Bytes (count - 1))) := by
    apply closed.bind (closed.number addr _)
    intro _
    apply closed.bind (closed.reverse _ _)
    intro _
    split <;> exact closed.total _
  dsimp only
  split
  · apply closed.bind (closed.read _)
    intro bs
    apply closed.bind (closed.reverse _ _)
    intro _
    exact closed.bind (closed.number _ _) fun _ => cleared
  · exact cleared

theorem drop : holds Unit (table.drop addr) := by
  apply closed.bind (closed.read _)
  intro ns
  split
  · exact closed.remove addr ns
  · exact closed.pure ()

end Closed

end Index

namespace Formulator

def toStakingAmountKey (addr : Address) : Bytes := [1, 0] ++ addr.bytes

def toStakingAmountNumberKey (addr : Address) : Bytes := [1, 1] ++ addr.bytes

def toStakingAmountReverseKey (num : UInt32) : Bytes := [1, 2] ++ bigEndian 4 num.toNat

def tagStakingAmountCount : Bytes := [1, 3]

def tagHyperPolicy : Bytes := [2, 4]

def toAutoStakingKey (addr : Address) : Bytes := [4, 4] ++ addr.bytes

def toUnstakingAmountKey (height : UInt32) (addr : Address) : Bytes :=
  [6, 0] ++ (bigEndian 4 height.toNat ++ addr.bytes)

def toUnstakingAmountNumberKey (height : UInt32) (addr : Address) : Bytes :=
  [6, 1] ++ (bigEndian 4 height.toNat ++ addr.bytes)

def toUnstakingAmountReverseKey (height num : UInt32) : Bytes :=
  [6, 2] ++ (bigEndian 4 height.toNat ++ bigEndian 4 num.toNat)

def toUnstakingAmountCountKey (height : UInt32) : Bytes := [6, 3] ++ bigEndian 4 height.toNat

variable {left right : Address}

@[simp] theorem toStakingAmountKey_inj :
    toStakingAmountKey left = toStakingAmountKey right ↔ left = right := by
  constructor
  · intro same
    exact Address.eq_of_bytes_eq (List.append_cancel_left same)
  · intro same
    rw [same]

@[simp] theorem toUnstakingAmountKey_inj {height height' : UInt32} :
    toUnstakingAmountKey height left = toUnstakingAmountKey height' right ↔
      height = height' ∧ left = right := by
  constructor
  · intro same
    obtain ⟨heights, addrs⟩ := List.append_inj (List.append_cancel_left same) (by simp)
    have number := big_endian_injective height.toNat_lt height'.toNat_lt heights
    exact ⟨UInt32.toNat_inj.mp number, Address.eq_of_bytes_eq addrs⟩
  · rintro ⟨rfl, rfl⟩
    rfl

variable (p : Formulator)

def stakers (hyper : Address) : Index Acc Ev where
  read := accountData hyper p.pid
  write := setAccountData hyper p.pid
  numberKey := toStakingAmountNumberKey
  reverseKey := toStakingAmountReverseKey
  countKey := tagStakingAmountCount

def unstakers (height : UInt32) : Index Acc Ev where
  read := processData p.pid
  write := setProcessData p.pid
  numberKey := toUnstakingAmountNumberKey height
  reverseKey := toUnstakingAmountReverseKey height
  countKey := toUnstakingAmountCountKey height

def getStakingAmount (hyper staker : Address) : Script Acc Ev Int := do
  let bs ← accountData hyper p.pid (toStakingAmountKey staker)
  return Amount.ofStored bs

def addStakingAmount (hyper staker : Address) (am : Int) : Script Acc Ev Unit := do
  (p.stakers hyper).add staker
  let total ← p.getStakingAmount hyper staker
  setAccountData hyper p.pid (toStakingAmountKey staker) (Amount.toBytes (total + am))

/-- The error is the result: the hook of the process ignores it. -/
def subStakingAmount (hyper staker : Address) (am : Int) : Script Acc Ev (Except Err Unit) := do
  let total ← p.getStakingAmount hyper staker
  if total < am then return .error .minusStakingAmount
  if total - am = 0 then
    (p.stakers hyper).drop staker
    setAccountData hyper p.pid (toStakingAmountKey staker) []
  else setAccountData hyper p.pid (toStakingAmountKey staker) (Amount.toBytes (total - am))
  return .ok ()

variable [PairsCodec]

def getUnstakingAmountMap (addr : Address) (height : UInt32) :
    Script Acc Ev (Except Err (SortedMap Address Int)) := do
  let bs ← processData p.pid (toUnstakingAmountKey height addr)
  return if bs.length > 0 then AmountMap.unmarshal bs else .error .notExistUnstakingAmount

def getUnstakingAmount (hyper addr : Address) (height : UInt32) :
    Script Acc Ev (Except Err Int) := do
  match ← p.getUnstakingAmountMap addr height with
  | .error err => return .error err
  | .ok mp =>
    return match mp.get hyper with
      | some am => .ok am
      | none => .error .notExistUnstakingAmount

def addUnstakingAmount (hyper addr : Address) (height : UInt32) (am : Int) :
    Script Acc Ev Unit := do
  (p.unstakers height).add addr
  let mp ← match ← p.getUnstakingAmountMap addr height with
    | .ok mp => pure mp
    | .error err => if err ≠ .notExistUnstakingAmount then fail err else pure .empty
  let sum := (mp.get hyper).getD 0
  setProcessData p.pid (toUnstakingAmountKey height addr)
    (AmountMap.marshal (mp.put hyper (sum + am)))

/-- The entry of the address in the payout schedule is removed. The amounts stay. -/
def removeUnstakingAmount (addr : Address) (height : UInt32) : Script Acc Ev (Except Err Unit) := do
  let ns ← processData p.pid (toUnstakingAmountNumberKey height addr)
  if ns.length = 0 then return .error .notExistUnstakingAmount
  (p.unstakers height).remove addr ns
  return .ok ()

def subUnstakingAmount (hyper addr : Address) (height : UInt32) (am : Int) :
    Script Acc Ev Unit := do
  let mp ← check (← p.getUnstakingAmountMap addr height)
  match mp.get hyper with
  | none => fail .notExistUnstakingAmount
  | some sum =>
    if sum < am then fail .minusUnstakingAmount
    else
      let mp := AmountMap.leave hyper (sum - am) mp
      if mp.len > 0 then
        setProcessData p.pid (toUnstakingAmountKey height addr) (AmountMap.marshal mp)
      else
        let _ ← p.removeUnstakingAmount addr height
        return ()

end Formulator

end Fleta
