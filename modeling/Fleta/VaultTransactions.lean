import Fleta.Instances
import Fleta.Vault
import Mathlib.Algebra.BigOperators.Group.Finset.Piecewise

/-!
# Transactions that move coins

`Execute` of the transactions of the vault, the gateway and the payment process that move
balances, and what they do to all balances together: every script moves coins between the
addresses it names and the collected fee, and loses a fixed amount.
-/

namespace Fleta

open Database

variable {Acc Ev α β : Type}

class VaultAccounts (Acc : Type) where
  singleAccount : Address → Bytes → PublicHash → Acc
  multiAccount : Address → Bytes → UInt8 → List PublicHash → Acc

/-- The policies of the vault and of the gateway have one field, an amount; this is its text. -/
class PolicyCodec where
  unmarshal : Bytes → Except Err Bytes

structure Client where
  pid : UInt8
  vault : Vault

def ascii (text : String) : Bytes := text.toList.map fun c => UInt8.ofNat c.toNat

def gatewayName : Bytes := ascii "fleta.gateway"

def paymentName : Bytes := ascii "fleta.payment"

def toAdminAddressKey (name : Bytes) : Bytes := [1, 1] ++ name

def toERC20TXIDKey (txid : Hash256) : Bytes := [1, 0] ++ txid

def toRequestPaymentKey (txid : Bytes) : Bytes := [1, 0] ++ txid

def gatewayTagPolicy : Bytes := [2, 0]

open Script

/-- The process panics when it has no admin. -/
def Vault.adminAddress (v : Vault) (name : Bytes) : Script Acc Ev Address := do
  let bs ← processData v.adminPid (toAdminAddressKey name)
  if bs.length = 0 then fail .panicked else return addressOf bs

/-- The transactions, with the fields that `Execute` reads. -/
inductive CoinTx where
  | transfer (sender recipient : Address) (amount : Int)
  | burn (sender : Address) (amount : Int)
  | createAccount (sender : Address) (name : Bytes) (keyHash : PublicHash)
  | createMultiAccount (sender : Address) (name : Bytes) (required : UInt8)
      (keyHashes : List PublicHash)
  | tokenIn (sender : Address) (txid : Hash256) (toAddresses : List Address)
      (amounts : List Int)
  | tokenOut (sender : Address) (amount : Int)
  | billing (debtor : Address) (amount : Int)
  | responsePayment (sender : Address) (txid : Bytes) (amount : Int) (isAccept : Bool)

section Execute

variable [VaultAccounts Acc] [PolicyCodec]

def Vault.newAddress (v : Vault) (index : UInt16) : Script Acc Ev Address := do
  return Address.new (← env).targetHeight index v.magic

def Vault.openAccount (v : Vault) (sender : Address) (cost : Int) (index : UInt16)
    (acc : Address → Acc) : Script Acc Ev Unit := do
  v.subBalance sender cost
  v.addCollectedFee cost
  let addr ← v.newAddress index
  let created ← Script.createAccount (acc addr)
  check created

/-- One round of the loop of `TokenIn`, which panics when there are fewer addresses than
amounts. -/
def Vault.payOut (v : Vault) (sender : Address) : List Address → List Int → Script Acc Ev Unit
  | _, [] => pure ()
  | [], am :: _ => do
      v.subBalance sender am
      fail .panicked
  | addr :: addrs, am :: ams => do
      v.subBalance sender am
      v.addBalance addr am
      payOut v sender addrs ams

/-- `Execute` of the transaction for its process `p` and its index in the block. -/
def CoinTx.execute (p : Client) (index : UInt16) : CoinTx → Script Acc Ev Unit
  | transfer sender recipient amount =>
    p.vault.withFee sender do
      p.vault.subBalance sender amount
      p.vault.addBalance recipient amount
  | burn sender amount => p.vault.withFee sender (p.vault.subBalance sender amount)
  | createAccount sender name keyHash =>
    p.vault.withFee sender do
      let bs ← processData p.vault.pid Vault.tagPolicy
      let cost ← check (PolicyCodec.unmarshal bs)
      p.vault.openAccount sender (Amount.ofBytes cost) index
        (VaultAccounts.singleAccount · name keyHash)
  | createMultiAccount sender name required keyHashes =>
    p.vault.withFee sender
      (p.vault.openAccount sender (Amount.coin * 10) index
        (VaultAccounts.multiAccount · name required keyHashes))
  | tokenIn sender txid toAddresses amounts => do
      p.vault.payOut sender toAddresses amounts
      setProcessData p.pid (toERC20TXIDKey txid) [1]
  | tokenOut sender amount =>
    p.vault.withFee sender do
      let bs ← processData p.pid gatewayTagPolicy
      let withdrawFee ← check (PolicyCodec.unmarshal bs)
      p.vault.subBalance sender (Amount.ofBytes withdrawFee)
      p.vault.subBalance sender amount
      let admin ← p.vault.adminAddress gatewayName
      p.vault.addBalance admin (Amount.ofBytes withdrawFee)
      p.vault.addBalance admin amount
  | billing debtor amount => do
      p.vault.subBalance debtor amount
      let admin ← p.vault.adminAddress paymentName
      p.vault.addBalance admin amount
  | responsePayment sender txid amount isAccept => do
      if isAccept then
        p.vault.subBalance sender amount
        let admin ← p.vault.adminAddress paymentName
        p.vault.addBalance admin amount
      setProcessData p.pid (toRequestPaymentKey txid) []

end Execute

/-- There are finitely many addresses. -/
noncomputable instance : Fintype Address :=
  Fintype.ofInjective (fun addr (i : Fin addressSize) => (addr.bytes[i.val]?.getD 0).toFin) <| by
    intro left right same
    apply Address.eq_of_bytes_eq
    apply List.ext_getElem (left.size.trans right.size.symm)
    intro i belowLeft belowRight
    have at_i := congrFun same ⟨i, left.size ▸ belowLeft⟩
    simpa [belowLeft, belowRight, UInt8.toFin_inj] using at_i

namespace World

variable (v : Vault)

noncomputable def funds (w : World Acc Ev) : Int :=
  ∑ addr : Address, w.balance v addr + w.collectedFee v

def adminData (w : World Acc Ev) (name : Bytes) : Bytes :=
  w.processData v.adminPid (toAdminAddressKey name)

/-- Coins were moved between the named addresses and the collected fee, and some lost. -/
structure Moved (named : Set Address) (lost : Int) (w w' : World Acc Ev) : Prop where
  funds : w'.funds v + lost = w.funds v
  others : ∀ addr, addr ∉ named → w'.balance v addr = w.balance v addr
  admin : w'.adminData v = w.adminData v

variable {v} {named : Set Address} {w w' : World Acc Ev}

namespace Moved

theorem trans {lost more : Int} {w'' : World Acc Ev} (first : w.Moved v named lost w')
    (second : w'.Moved v named more w'') : w.Moved v named (lost + more) w'' where
  funds := by
    rw [← first.funds, ← second.funds]
    omega
  others addr outside := (second.others addr outside).trans (first.others addr outside)
  admin := second.admin.trans first.admin

theorem of_same (balance : ∀ addr, w'.balance v addr = w.balance v addr)
    (fee : w'.collectedFee v = w.collectedFee v) (admin : w'.adminData v = w.adminData v) :
    w.Moved v named 0 w' where
  funds := by simp only [World.funds, balance, fee, add_zero]
  others addr _ := balance addr
  admin := admin

theorem setBalance {addr : Address} (mem : addr ∈ named) {am : Int} (nonneg : 0 ≤ am) :
    w.Moved v named (w.balance v addr - am) (w.setBalance v addr am) where
  funds := by
    have changed : ∀ other, (w.setBalance v addr am).balance v other =
        w.balance v other + if other = addr then am - w.balance v addr else 0 := by
      intro other
      rw [balance_setBalance v nonneg]
      split
      · rename_i same
        rw [same]
        omega
      · omega
    simp only [World.funds, changed, Finset.sum_add_distrib, Finset.sum_ite_eq',
      Finset.mem_univ, if_true, collectedFee_setBalance]
    omega
  others other outside := by
    rw [balance_setBalance v nonneg, if_neg]
    rintro rfl
    exact outside mem
  admin := rfl

theorem setCollectedFee {am : Int} (nonneg : 0 ≤ am) :
    w.Moved v named (w.collectedFee v - am) (w.setCollectedFee v am) where
  funds := by
    simp only [World.funds, balance_setCollectedFee, collectedFee_setCollectedFee v nonneg]
    omega
  others _ _ := rfl
  admin := by
    funext name
    simp [adminData, World.setCollectedFee, setProcessData, toAdminAddressKey,
      Vault.tagCollectedFee]

end Moved

end World

section Moves

variable [Account Acc] [Event Ev] [Base58]

/-- A script that, wherever the admin process knows `admin` and the script succeeds, moves
coins between the named addresses and loses a fixed amount. -/
def Script.Moves (v : Vault) (named : Set Address) (admin : Bytes → Bytes) (lost : Int)
    (script : Script Acc Ev α) : Prop :=
  ∀ (w w' : World Acc Ev) (next : α → Prog Acc Ev), w.adminData v = admin →
    (script next).exec World.merge w = (.ok (), w') →
      ∃ result mid, w.Moved v named lost mid ∧ (next result).exec World.merge mid = (.ok (), w')

namespace Script.Moves

variable {v : Vault} {named : Set Address} {admin : Bytes → Bytes} {lost more : Int}
  {script : Script Acc Ev α}

theorem cast (moves : script.Moves v named admin lost)
    (same : lost = more) : script.Moves v named admin more := same ▸ moves

variable {rest : α → Script Acc Ev β}

theorem bind (first : script.Moves v named admin lost)
    (second : ∀ result, (rest result).Moves v named admin more) :
    (script >>= rest).Moves v named admin (lost + more) := by
  intro w w' next known done
  obtain ⟨result, mid, moved, run⟩ := first w w' _ known done
  obtain ⟨last, mid', moved', run'⟩ := second result mid w' next (moved.admin.trans known) run
  exact ⟨last, mid', moved.trans moved', run'⟩

theorem after (first : script.Moves v named admin 0)
    (second : ∀ result, (rest result).Moves v named admin lost) :
    (script >>= rest).Moves v named admin lost :=
  (first.bind second).cast (zero_add lost)

theorem pure (result : α) : (pure result : Script Acc Ev α).Moves v named admin 0 :=
  fun _ _ _ _ done => ⟨result, _, .of_same (fun _ => rfl) rfl rfl, done⟩

theorem check (result : Except Err α) :
    (Script.check result : Script Acc Ev α).Moves v named admin 0 := by
  cases result with
  | ok result => exact pure result
  | error err =>
    intro w w' next known done
    cases done

theorem fail (err : Err) : (Script.fail err : Script Acc Ev α).Moves v named admin lost := by
  intro w w' next known done
  cases done

theorem env : (Script.env : Script Acc Ev Env).Moves v named admin 0 :=
  fun w _ _ _ done => ⟨w.env, w, .of_same (fun _ => rfl) rfl rfl, done⟩

theorem processData (pid : UInt8) (name : Bytes) :
    (Script.processData pid name : Script Acc Ev Bytes).Moves v named admin 0 :=
  fun w _ _ _ done => ⟨w.processData pid name, w, .of_same (fun _ => rfl) rfl rfl, done⟩

theorem createAccount (acc : Acc) :
    (Script.createAccount acc : Script Acc Ev (Except Err Unit)).Moves v named admin 0 := by
  intro w w' next known done
  refine ⟨(w.insertAccount _ acc).1, (w.insertAccount _ acc).2, ?_, done⟩
  unfold World.insertAccount
  dsimp only
  split
  · exact .of_same (fun _ => rfl) rfl rfl
  split
  · exact .of_same (fun _ => rfl) rfl rfl
  split
  · exact .of_same (fun _ => rfl) rfl rfl
  split
  · exact .of_same (fun _ => rfl) rfl rfl
  split <;> exact .of_same (fun _ => rfl) rfl rfl

theorem setProcessData (pid : UInt8) (key value : Bytes) :
    (Script.setProcessData pid ([1, 0] ++ key) value : Script Acc Ev Unit).Moves
      v named admin 0 := by
  intro w w' next known done
  refine ⟨(), w.setProcessData pid ([1, 0] ++ key) value, .of_same (fun _ => rfl) ?_ ?_, done⟩
  · simp [World.collectedFee, World.setProcessData, Vault.tagCollectedFee]
  · funext name
    simp [World.adminData, World.setProcessData, toAdminAddressKey]

variable {addr : Address}

theorem subBalance (mem : addr ∈ named) (am : Int) :
    (v.subBalance addr am : Script Acc Ev Unit).Moves v named admin am := by
  intro w w' next known done
  rw [Vault.exec_subBalance] at done
  split at done
  · cases done
  · have nonneg : 0 ≤ w.balance v addr - am := by omega
    refine ⟨(), _, ?_, done⟩
    have moved : w.Moved v named _ _ := World.Moved.setBalance mem nonneg
    rwa [sub_sub_cancel] at moved

theorem addBalance (mem : addr ∈ named) (am : Int) :
    (v.addBalance addr am : Script Acc Ev Unit).Moves v named admin (-am) := by
  intro w w' next known done
  by_cases minus : am < 0
  · simp [Vault.addBalance, minus] at done
  · rw [Vault.exec_addBalance v _ w next (not_lt.mp minus)] at done
    have nonneg : 0 ≤ w.balance v addr + am := by
      have held := w.balance_nonneg v addr
      omega
    refine ⟨(), _, ?_, done⟩
    have moved : w.Moved v named _ _ := World.Moved.setBalance mem nonneg
    rwa [sub_add_cancel_left] at moved

theorem addCollectedFee (am : Int) :
    (v.addCollectedFee am : Script Acc Ev Unit).Moves v named admin (-am) := by
  intro w w' next known done
  by_cases minus : am < 0
  · simp [Vault.addCollectedFee, minus] at done
  · rw [Vault.exec_addCollectedFee v _ w next (not_lt.mp minus)] at done
    have nonneg : 0 ≤ w.collectedFee v + am := by
      have held := w.collectedFee_nonneg v
      omega
    refine ⟨(), _, ?_, done⟩
    have moved : w.Moved v named _ _ := World.Moved.setCollectedFee nonneg
    rwa [sub_add_cancel_left] at moved

variable {body : Script Acc Ev Unit}

theorem within (moves : body.Moves v named admin lost) :
    (Script.within body).Moves v named admin lost := by
  intro w w' next known done
  obtain ⟨mid, ran, done⟩ := Script.within_ok done
  obtain ⟨_, last, moved, run⟩ := moves w.snapshot mid _ known ran
  rw [Script.exec_done, Prod.mk.injEq] at run
  rw [run.2] at moved
  exact ⟨(), w.merge mid, { moved with }, done⟩

theorem withFee {sender : Address} (mem : sender ∈ named) (moves : body.Moves v named admin lost) :
    (v.withFee sender body).Moves v named admin lost := by
  intro w w' next known done
  rw [Vault.exec_withFee] at done
  split at done
  · cases done
  · have fee := w.defaultFee_nonneg v
    have held := w.collectedFee_nonneg v
    have left : 0 ≤ w.balance v sender - w.defaultFee v := by omega
    have more : 0 ≤ w.collectedFee v + w.defaultFee v := by omega
    have paid : w.Moved v named _ _ := World.Moved.setBalance mem left
    have collected : World.Moved v named _ _ (w.charged v sender) :=
      World.Moved.setCollectedFee more
    have charged := paid.trans collected
    obtain ⟨result, mid, moved, run⟩ := moves.within _ w' next (charged.admin.trans known) done
    have whole := charged.trans moved
    rw [World.collectedFee_setBalance] at whole
    refine ⟨result, mid, ?_, run⟩
    convert whole using 1
    omega

theorem adminAddress {name : Bytes} {rest : Address → Script Acc Ev α}
    (moves : (rest (addressOf (admin name))).Moves v named admin lost) :
    (v.adminAddress name >>= rest).Moves v named admin lost := by
  intro w w' next known done
  have data : w.processData v.adminPid (toAdminAddressKey name) = admin name := congrFun known name
  simp only [Vault.adminAddress, bind_apply, exec_processData, data] at done
  split at done
  · cases done
  · exact moves w w' next known done

end Script.Moves

variable {admin : Bytes → Bytes} {v : Vault} {sender : Address}

theorem Vault.openAccount_moves {named : Set Address} (mem : sender ∈ named) (cost : Int) (index : UInt16) (acc : Address → Acc) :
    (v.openAccount sender cost index acc : Script Acc Ev Unit).Moves v named admin 0 := by
  have address : (v.newAddress index : Script Acc Ev Address).Moves v named admin 0 :=
    Script.Moves.env.after fun _ => .pure _
  have opened : ∀ addr, (Script.createAccount (acc addr) >>= Script.check :
      Script Acc Ev Unit).Moves v named admin 0 :=
    fun addr => (Script.Moves.createAccount (acc addr)).after Script.Moves.check
  exact Script.Moves.cast ((Script.Moves.subBalance mem cost).bind fun _ =>
      (Script.Moves.addCollectedFee cost).bind fun _ => address.after opened)
    (by omega)

theorem Vault.payOut_moves {named : Set Address} (mem : sender ∈ named) {addrs : List Address}
    (mems : ∀ addr ∈ addrs, addr ∈ named) (ams : List Int) :
    (v.payOut sender addrs ams : Script Acc Ev Unit).Moves v named admin 0 := by
  induction ams generalizing addrs with
  | nil =>
    rw [payOut]
    exact .pure ()
  | cons am ams ih =>
    cases addrs with
    | nil =>
      exact Script.Moves.cast
        ((Script.Moves.subBalance mem am).bind fun _ => .fail _) (Int.add_right_neg am)
    | cons addr addrs =>
      have rest := ih fun addr mem => mems addr (List.mem_cons_of_mem _ mem)
      exact Script.Moves.cast ((Script.Moves.subBalance mem am).bind fun _ =>
          (Script.Moves.addBalance (mems addr List.mem_cons_self) am).bind fun _ => rest)
        (by omega)

def CoinTx.named (admin : Bytes → Bytes) : CoinTx → Set Address
  | transfer sender recipient _ => {sender, recipient}
  | burn sender _ => {sender}
  | createAccount sender _ _ => {sender}
  | createMultiAccount sender _ _ _ => {sender}
  | tokenIn sender _ toAddresses _ => insert sender {addr | addr ∈ toAddresses}
  | tokenOut sender _ => {sender, addressOf (admin gatewayName)}
  | billing debtor _ => {debtor, addressOf (admin paymentName)}
  | responsePayment sender _ _ _ => {sender, addressOf (admin paymentName)}

def CoinTx.burned : CoinTx → Int
  | burn _ amount => amount
  | _ => 0

/-- Two steps of which the second puts back what the first took. -/
theorem Script.Moves.back {named : Set Address} {am : Int}
    {script : Script Acc Ev α} {rest : α → Script Acc Ev β} (first : script.Moves v named admin am)
    (second : ∀ result, (rest result).Moves v named admin (-am)) :
    (script >>= rest).Moves v named admin 0 :=
  (first.bind second).cast (Int.add_right_neg am)

variable [VaultAccounts Acc] [PolicyCodec]

theorem CoinTx.execute_moves (p : Client) (index : UInt16) (tx : CoinTx) (admin : Bytes → Bytes) :
    (tx.execute p index : Script Acc Ev Unit).Moves p.vault (tx.named admin) admin tx.burned := by
  cases tx with
  | transfer sender recipient amount =>
    have mine : sender ∈ (transfer sender recipient amount).named admin := .inl rfl
    have theirs : recipient ∈ (transfer sender recipient amount).named admin := .inr rfl
    apply Script.Moves.withFee mine
    apply (Script.Moves.subBalance mine amount).back
    intro _
    exact .addBalance theirs amount
  | burn sender amount =>
    have mine : sender ∈ (burn sender amount).named admin := rfl
    exact .withFee mine (.subBalance mine amount)
  | createAccount sender name keyHash =>
    have mine : sender ∈ (createAccount sender name keyHash).named admin := rfl
    apply Script.Moves.withFee mine
    apply (Script.Moves.processData _ _).after
    intro bs
    apply (Script.Moves.check _).after
    intro cost
    exact p.vault.openAccount_moves mine _ index _
  | createMultiAccount sender name required keyHashes =>
    have mine : sender ∈ (createMultiAccount sender name required keyHashes).named admin := rfl
    apply Script.Moves.withFee mine
    exact p.vault.openAccount_moves mine _ index _
  | tokenIn sender txid toAddresses amounts =>
    have mine : sender ∈ (tokenIn sender txid toAddresses amounts).named admin := .inl rfl
    have theirs : ∀ addr ∈ toAddresses,
        addr ∈ (tokenIn sender txid toAddresses amounts).named admin := fun _ mem => .inr mem
    apply (p.vault.payOut_moves mine theirs amounts).after
    intro _
    exact .setProcessData p.pid txid [1]
  | tokenOut sender amount =>
    have mine : sender ∈ (tokenOut sender amount).named admin := .inl rfl
    have theirs : addressOf (admin gatewayName) ∈
        (tokenOut sender amount).named admin := .inr rfl
    apply Script.Moves.withFee mine
    apply (Script.Moves.processData _ _).after
    intro bs
    apply (Script.Moves.check _).after
    intro fee
    exact Script.Moves.cast ((Script.Moves.subBalance mine (Amount.ofBytes fee)).bind fun _ =>
        (Script.Moves.subBalance mine amount).bind fun _ =>
          .adminAddress ((Script.Moves.addBalance theirs (Amount.ofBytes fee)).bind fun _ =>
            .addBalance theirs amount))
      (by simp only [burned]; omega)
  | billing debtor amount =>
    have mine : debtor ∈ (billing debtor amount).named admin := .inl rfl
    have theirs : addressOf (admin paymentName) ∈
        (billing debtor amount).named admin := .inr rfl
    apply (Script.Moves.subBalance mine amount).back
    intro _
    exact .adminAddress (.addBalance theirs amount)
  | responsePayment sender txid amount isAccept =>
    have mine : sender ∈ (responsePayment sender txid amount isAccept).named admin := .inl rfl
    have theirs : addressOf (admin paymentName) ∈
        (responsePayment sender txid amount isAccept).named admin := .inr rfl
    have removed : (Script.setProcessData p.pid (toRequestPaymentKey txid) [] :
        Script Acc Ev Unit).Moves p.vault
          ((responsePayment sender txid amount isAccept).named admin) admin 0 :=
      .setProcessData p.pid txid []
    cases isAccept with
    | false => exact removed
    | true =>
      apply (Script.Moves.subBalance mine amount).back
      intro _
      apply Script.Moves.adminAddress
      exact ((Script.Moves.addBalance theirs amount).bind fun _ => removed).cast (add_zero _)

/-- Over every key-value state with exact snapshots, a successful execution keeps the sum
of all balances and the collected fee, less what it burns. -/
theorem CoinTx.execute_conserves (p : Client) (index : UInt16) (tx : CoinTx)
    (w w' : World Acc Ev) (done : (tx.execute p index).toProg.exec World.merge w = (.ok (), w')) :
    w'.funds p.vault = w.funds p.vault - tx.burned ∧
      (∀ addr, 0 ≤ w'.balance p.vault addr) ∧
      ∀ addr, addr ∉ tx.named (w.adminData p.vault) →
        w'.balance p.vault addr = w.balance p.vault addr := by
  obtain ⟨_, mid, moved, run⟩ := tx.execute_moves p index _ w w' _ rfl done
  rw [Script.exec_done, Prod.mk.injEq] at run
  rw [← run.2]
  refine ⟨?_, fun addr => mid.balance_nonneg p.vault addr, moved.others⟩
  have funds := moved.funds
  omega

end Moves

namespace Instances

scoped instance : VaultAccounts SingleAccount where
  singleAccount addr name keyHash := ⟨addr, name, keyHash⟩
  multiAccount addr name _ keyHashes := ⟨addr, name, keyHashes.flatten⟩

scoped instance : PolicyCodec := ⟨.ok⟩

def someClient : Client := ⟨2, ⟨1, 3, 0⟩⟩

def twoCoins : World SingleAccount PlainEvent :=
  World.setBalance someClient.vault
    ⟨⟨1, [], 1, 1, [], 0⟩, fun _ => .absent, fun _ => none, fun _ _ _ => [], fun _ _ => [], [],
      fun _ _ _ => false, fun _ _ => false⟩
    someAddress (Amount.coin * 2)

/-- A transfer of an address to itself pays the fee and nothing else. -/
theorem self_transfer_conserves : ∃ w' : World SingleAccount PlainEvent,
    ((CoinTx.transfer someAddress someAddress Amount.coin).execute someClient 0).toProg.exec World.merge
        twoCoins = (.ok (), w') ∧
      w'.funds someClient.vault = twoCoins.funds someClient.vault - 0 := by
  refine Script.exists_passed (by decide +kernel) fun w' ran => ?_
  exact (CoinTx.execute_conserves someClient 0 _ twoCoins w' ran).1

end Instances

end Fleta
