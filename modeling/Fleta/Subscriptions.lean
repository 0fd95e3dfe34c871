import Fleta.Gateway

/-!
# Subscriptions of the payment process

A subscription is stored as the bytes of its amount, and no bytes mean that there is none.
An amount of zero is admitted and has no bytes, so the subscription is lost at once; and one
that is made behind an `Unsubscribe` of the same block is hidden by the mark of the removal.
All others are kept by every transaction but their own `Unsubscribe`.
-/

namespace Fleta

open Script ByteOrder World Amount

variable {Acc Ev : Type}

def toTopicKey (topic : UInt64) : Bytes := [2, 0] ++ bigEndian 8 topic.toNat

theorem toTopicKey_injective {topic other : UInt64} (same : toTopicKey topic = toTopicKey other) :
    topic = other :=
  UInt64.toNat_inj.mp
    (big_endian_injective topic.toNat_lt other.toNat_lt (List.append_cancel_left same))

theorem Amount.toBytes_ne_nil {am : Int} (nonzero : am ≠ 0) : toBytes am ≠ [] :=
  fun empty => nonzero (toBytes_isEmpty.mp (List.isEmpty_iff.mpr empty))

inductive PaymentTx where
  | addTopic (sender : Address) (topic : UInt64) (topicName : Bytes)
  | subscribe (sender : Address) (topic : UInt64) (amount : Int)
  | unsubscribe (sender : Address) (topic : UInt64)
  | billing (sender : Address) (topic : UInt64) (recipient : Address) (amount : Int) (content : Bytes)

namespace Payment

def topicOf [HashFunction] (name : Bytes) : UInt64 :=
  UInt64.ofNat (fromLittleEndian
    ((HashFunction.hash (ascii "fleta.payment#Topic#" ++ name)).take 8))

variable (p : Client)

def getTopicName (topic : UInt64) : Script Acc Ev Bytes := do
  let bs ← processData p.pid (toTopicKey topic)
  if bs.length > 0 then return bs else fail .notExistTopic

/-- The error for a topic that exists is ignored by `Execute`. -/
def addTopic (topic : UInt64) (name : Bytes) : Script Acc Ev Unit := do
  let bs ← processData p.pid (toTopicKey topic)
  if bs.length > 0 then return else setProcessData p.pid (toTopicKey topic) name

def getSubscribe (topic : UInt64) (addr : Address) : Script Acc Ev Int := do
  let bs ← accountData addr p.pid (toTopicKey topic)
  if bs.length > 0 then return ofBytes bs else fail .notExistSubscribe

def addSubscribe (topic : UInt64) (addr : Address) (am : Int) : Script Acc Ev Unit := do
  let bs ← accountData addr p.pid (toTopicKey topic)
  if bs.length > 0 then fail .existSubscribe
  else setAccountData addr p.pid (toTopicKey topic) (toBytes am)

def removeSubscribe (topic : UInt64) (addr : Address) : Script Acc Ev Unit :=
  setAccountData addr p.pid (toTopicKey topic) []

/-- The first signer is the admin, the others sign for the sender. -/
def validateBoth [SignedAccount Acc] (sender : Address) (signers : List PublicHash) :
    Script Acc Ev Unit := do
  if signers.length ≤ 1 then fail .unauthorizedTransaction
  else
    validateSigners (← p.vault.adminAddress paymentName) (signers.take 1)
    validateSigners sender (signers.drop 1)

end Payment

namespace PaymentTx

open Payment

variable (p : Client)

def validate [SignedAccount Acc] [HashFunction] (signers : List PublicHash) :
    PaymentTx → Script Acc Ev Unit
  | addTopic sender topic topicName => do
      if sender ≠ (← p.vault.adminAddress paymentName) then fail .unauthorizedTransaction
      else if topic ≠ topicOf topicName then fail .invalidTopicName
      else validateSigners sender signers
  | subscribe sender topic amount => do
      if amount ≠ 0 ∧ amount < coin / 10 then fail .dustAmount
      else
        let _ ← getTopicName p topic
        validateBoth p sender signers
  | unsubscribe sender _ => validateBoth p sender signers
  | billing sender topic recipient amount content => do
      if sender ≠ (← p.vault.adminAddress paymentName) then fail .unauthorizedTransaction
      else if content.length > 255 then fail .exceedContentSize
      else
        let _ ← getTopicName p topic
        if !(← check (← hasAccount recipient)) then fail .notExistAccount
        else
          let am ← getSubscribe p topic recipient
          if am ≠ 0 ∧ am < amount then fail .invalidBillingAmount
          else validateSigners sender signers

def execute [VaultAccounts Acc] [PolicyCodec] : PaymentTx → Script Acc Ev Unit
  | addTopic _ topic topicName => Payment.addTopic p topic topicName
  | subscribe sender topic amount => addSubscribe p topic sender amount
  | unsubscribe sender topic => removeSubscribe p topic sender
  | billing _ _ recipient amount _ => (CoinTx.billing recipient amount).execute p 0

def run [SignedAccount Acc] [HashFunction] [VaultAccounts Acc] [PolicyCodec]
    (signers : List PublicHash) (tx : PaymentTx) : Script Acc Ev Unit := do
  tx.validate p signers
  tx.execute p

end PaymentTx

section Later

variable [Account Acc] [Event Ev] [Base58]

namespace Payment

variable (p : Client) (sender : Address) (topic : UInt64) (bs : Bytes)

/-- The bytes of the subscription, and that the block has not removed it. -/
structure Stored (w : World Acc Ev) : Prop where
  data : w.accountData sender p.pid (toTopicKey topic) = bs
  unmarked : w.emptied sender p.pid (toTopicKey topic) = false

def Keeps (w w' : World Acc Ev) : Prop := Stored p sender topic bs w → Stored p sender topic bs w'

instance : Std.Refl (Keeps p sender topic bs : World Acc Ev → World Acc Ev → Prop) where
  refl _ stored := stored

instance : IsTrans (World Acc Ev) (Keeps p sender topic bs) where
  trans _ _ _ first second stored := second (first stored)

variable {p sender topic bs}

section

omit [Account Acc] [Event Ev] [Base58]

theorem Keeps.setAccountData {addr : Address} {pid : UInt8} {name : Bytes}
    (other : ¬(sender = addr ∧ p.pid = pid ∧ toTopicKey topic = name)) (w : World Acc Ev)
    (value : Bytes) : Keeps p sender topic bs w (w.setAccountData addr pid name value) := by
  intro stored
  constructor
  · rw [← stored.data]
    exact if_neg other
  · rw [← stored.unmarked]
    exact if_neg other

theorem Keeps.setBalance (v : Vault) (addr : Address) (w : World Acc Ev) (am : Int) :
    Keeps p sender topic bs w (w.setBalance v addr am) :=
  Keeps.setAccountData (fun same => by simp [toTopicKey, Vault.tagBalance] at same) w _

end

variable {w : World Acc Ev}

omit [Account Acc] [Event Ev] [Base58] in
theorem Keeps.commit {inner : World Acc Ev} (keeps : Keeps p sender topic bs w.snapshot inner) :
    Keeps p sender topic bs w (w.commit inner) := by
  intro stored
  obtain ⟨data, unmarked⟩ := keeps ⟨stored.data, rfl⟩
  constructor
  · simp [World.commit, stored.unmarked, data]
  · simp [World.commit, stored.unmarked, unmarked]

theorem getTopicName_asks : (getTopicName p topic : Script Acc Ev Bytes).Asks commit
    fun _ => True := by
  apply (Asks.processData _ _).later
  intro name
  split
  · exact .pure _
  · exact .fail _

theorem getSubscribe_asks : (getSubscribe p topic sender : Script Acc Ev Int).Asks commit
    fun _ => True := by
  apply (Asks.accountData _ _ _).later
  intro bs
  split
  · exact .pure _
  · exact .fail _

theorem validateBoth_asks [SignedAccount Acc] (signers : List PublicHash) :
    (validateBoth p sender signers : Script Acc Ev Unit).Asks commit fun _ => True := by
  unfold validateBoth
  split
  · exact .fail _
  apply (p.vault.adminAddress_asks paymentName).later
  intro admin
  apply (validateSigners_asks admin _).later
  intro _
  exact validateSigners_asks sender _

theorem addSubscribe_keeps (filled : bs ≠ []) (addr : Address) (other : UInt64) (am : Int) :
    (addSubscribe p other addr am : Script Acc Ev Unit).Does commit
      (Keeps p sender topic bs) := by
  intro w w' next done
  simp only [addSubscribe, bind_apply, exec_accountData] at done
  split at done
  · cases done
  · rename_i empty
    refine ⟨(), _, fun stored => Keeps.setAccountData (fun same => ?_) w _ stored, done⟩
    obtain ⟨rfl, -, key⟩ := same
    rw [← key, stored.data] at empty
    exact empty (List.length_pos_of_ne_nil filled)

theorem exec_check_ne {α : Type} {err : Err} {result : Except Err α}
    {next : α → Prog Acc Ev} (other : result ≠ .error err)
    (rest : ∀ given, ((next given).exec commit w).1 ≠ .error err) :
    ((check result next).exec commit w).1 ≠ .error err := by
  cases result with
  | ok given => exact rest given
  | error err' => exact fun same => other (congrArg Except.error (Except.error.inj same))

variable [SignedAccount Acc] [HashFunction] [VaultAccounts Acc] [PolicyCodec]

omit [VaultAccounts Acc] [PolicyCodec] in
theorem validate_asks (tx : PaymentTx) (signers : List PublicHash) :
    (tx.validate p signers : Script Acc Ev Unit).Asks commit fun _ => True := by
  cases tx with
  | addTopic sender topic topicName =>
    apply (p.vault.adminAddress_asks paymentName).later
    intro admin
    split
    · exact .fail _
    split
    · exact .fail _
    · exact validateSigners_asks _ _
  | subscribe sender topic amount =>
    simp only [PaymentTx.validate]
    split
    · exact .fail _
    · exact getTopicName_asks.later fun _ => validateBoth_asks _
  | unsubscribe sender topic => exact validateBoth_asks _
  | billing sender topic recipient amount content =>
    apply (p.vault.adminAddress_asks paymentName).later
    intro admin
    split
    · exact .fail _
    split
    · exact .fail _
    apply getTopicName_asks.later
    intro _
    apply Asks.later fun w _ _ done => ⟨trivial, w.hasAccount recipient, done⟩
    intro found
    apply (Asks.check found).later
    intro has
    split
    · exact .fail _
    apply getSubscribe_asks.later
    intro am
    split
    · exact .fail _
    · exact validateSigners_asks _ _

theorem run_keeps (filled : bs ≠ []) {tx : PaymentTx} (other : tx ≠ .unsubscribe sender topic)
    (signers : List PublicHash) :
    (tx.run p signers : Script Acc Ev Unit).Does commit (Keeps p sender topic bs) := by
  apply (Does.of_asks (validate_asks tx signers)).bind
  intro _
  cases tx with
  | addTopic sender topic topicName =>
    apply (Does.processData _ _).bind
    intro name
    split
    · exact .of_asks (.pure _)
    · exact fun w w' next done =>
        ⟨(), w.setProcessData p.pid _ _, fun stored => ⟨stored.data, stored.unmarked⟩, done⟩
  | subscribe sender topic amount => exact addSubscribe_keeps filled _ _ _
  | unsubscribe addr topic' =>
    refine fun w w' next done => ⟨(), _, .setAccountData (fun same => other ?_) w [], done⟩
    rw [same.1, toTopicKey_injective same.2.2]
  | billing admin billed recipient amount content =>
    apply (Vault.subBalance_does (.setBalance _ _) _).bind
    intro _
    apply (Does.of_asks (p.vault.adminAddress_asks paymentName)).bind
    intro _
    exact Vault.addBalance_does (.setBalance _ _) _

/-- The states after `w`, until the account's own `Unsubscribe`. -/
inductive Later (p : Client) (sender : Address) (topic : UInt64) (w : World Acc Ev) :
    World Acc Ev → Prop
  | now : Later p sender topic w w
  | transaction {w' w'' : World Acc Ev} (later : Later p sender topic w w') (tx : PaymentTx)
      (signers : List PublicHash) (other : tx ≠ .unsubscribe sender topic)
      (done : w'.transact (tx.run p signers) = some w'') : Later p sender topic w w''
  | nextBlock {w' : World Acc Ev} (later : Later p sender topic w w') (env : Env) :
      Later p sender topic w (w'.nextBlock env)

theorem Later.stored {w' : World Acc Ev} (later : Later p sender topic w w') (filled : bs ≠ [])
    (stored : Stored p sender topic bs w) : Stored p sender topic bs w' := by
  induction later with
  | now => exact stored
  | transaction later tx signers other done ih =>
    obtain ⟨inner, ran, rfl⟩ := transact_eq_some.mp done
    exact Keeps.commit ((run_keeps filled other signers).whole ran) ih
  | nextBlock later env ih => exact ⟨ih.data, rfl⟩

/-- The three parts of a remembered subscription. -/
structure Remembers (p : Client) (sender : Address) (topic : UInt64) (a : Int)
    (w : World Acc Ev) : Prop where
  known : (getSubscribe p topic sender).RunsTo commit w a w
  second : ∀ amount, (((PaymentTx.subscribe sender topic amount).execute p).toProg.exec
    commit w.snapshot).1 = .error .existSubscribe
  billed : ∀ admin amount content signers,
    (((PaymentTx.billing admin topic sender amount content).validate p signers).toProg.exec
      commit w.snapshot).1 ≠ .error .notExistSubscribe

omit [VaultAccounts Acc] [PolicyCodec] in
theorem Stored.billed (stored : Stored p sender topic bs w) (filled : bs ≠ [])
    (accounts : ∀ (acc : Acc) signers, SignedAccount.validate acc signers ≠ .error .notExistSubscribe)
    (admin : Address) (amount : Int) (content : Bytes) (signers : List PublicHash) :
    (((PaymentTx.billing admin topic sender amount content).validate p signers).toProg.exec
      commit w).1 ≠ .error .notExistSubscribe := by
  simp only [toProg, PaymentTx.validate, Vault.adminAddress, getTopicName, getSubscribe,
    validateSigners, bind_apply, exec_processData]
  split
  · rintro ⟨⟩
  simp only [pure_apply]
  split
  · rintro ⟨⟩
  split
  · rintro ⟨⟩
  simp only [bind_apply, exec_processData]
  split
  rotate_left
  · rintro ⟨⟩
  simp only [pure_apply, exec_hasAccount]
  apply exec_check_ne (by unfold World.hasAccount; split <;> rintro ⟨⟩)
  intro has
  split
  · rintro ⟨⟩
  simp only [bind_apply, exec_accountData, stored.data]
  rw [if_pos (List.length_pos_of_ne_nil filled)]
  simp only [pure_apply]
  split
  · rintro ⟨⟩
  simp only [bind_apply, exec_account]
  apply exec_check_ne (by unfold World.account; split <;> rintro ⟨⟩)
  intro acc
  exact exec_check_ne (accounts acc signers) fun _ => by rintro ⟨⟩

variable {a : Int}

theorem Stored.remembers (positive : 0 < a) (stored : Stored p sender topic (toBytes a) w)
    (accounts : ∀ (acc : Acc) signers, SignedAccount.validate acc signers ≠ .error .notExistSubscribe) :
    Remembers p sender topic a w := by
  have filled := toBytes_ne_nil positive.ne'
  have long := List.length_pos_of_ne_nil filled
  refine ⟨fun next => ?_, fun amount => ?_, Stored.billed ⟨stored.data, rfl⟩ filled accounts⟩
  · simp only [getSubscribe, bind_apply, exec_accountData, stored.data]
    rw [if_pos long, ofBytes_toBytes_of_nonneg positive.le]
    rfl
  · have found : w.snapshot.accountData sender p.pid (toTopicKey topic) = toBytes a := stored.data
    simp only [PaymentTx.execute, addSubscribe, toProg, bind_apply, exec_accountData, found]
    rw [if_pos long]
    rfl

theorem subscribe_done {signers : List PublicHash} {w₁ : World Acc Ev}
    (done : w.transact ((PaymentTx.subscribe sender topic a).run p signers) = some w₁) :
    0 ≤ a ∧ w.commit (w.snapshot.setAccountData sender p.pid (toTopicKey topic)
      (toBytes a)) = w₁ := by
  obtain ⟨inner, ran, rfl⟩ := transact_eq_some.mp done
  simp only [PaymentTx.run, toProg, bind_apply] at ran
  have dust : 0 ≤ a := by
    simp only [PaymentTx.validate] at ran
    split at ran
    · cases ran
    · have tenth : 0 ≤ coin / 10 := by decide
      omega
  obtain ⟨_, _, executed⟩ := validate_asks _ signers _ _ _ ran
  simp only [PaymentTx.execute, addSubscribe, bind_apply, exec_accountData] at executed
  split at executed
  · cases executed
  · exact ⟨dust, congrArg w.commit (Prod.mk.inj executed).2⟩

theorem Remembers.admitted
    (remembers : Remembers p sender topic a (w.commit (w.snapshot.setAccountData sender p.pid
      (toTopicKey topic) (toBytes a)))) :
    a ≠ 0 ∧ w.emptied sender p.pid (toTopicKey topic) = false := by
  have second := remembers.second 0
  simp only [PaymentTx.execute, addSubscribe, toProg, bind_apply, exec_accountData] at second
  split at second
  · rename_i stored
    simp only [World.snapshot, World.commit, World.setAccountData, and_self, if_true] at stored
    split at stored
    · cases stored
    · rename_i unmarked
      refine ⟨fun zero => ?_, by simpa using unmarked⟩
      rw [zero] at stored
      cases stored
  · cases second

/-- A subscription is remembered until the account's own `Unsubscribe` exactly when its amount
is not zero and the block did not remove an earlier one. -/
theorem remembered_iff (p : Client) (sender : Address) (topic : UInt64) (a : Int)
    (signers : List PublicHash) (w w₁ : World Acc Ev)
    (accounts : ∀ (acc : Acc) signers, SignedAccount.validate acc signers ≠ .error .notExistSubscribe)
    (done : w.transact ((PaymentTx.subscribe sender topic a).run p signers) = some w₁) :
    (∀ w₂, Later p sender topic w₁ w₂ → Remembers p sender topic a w₂) ↔
      a ≠ 0 ∧ w.emptied sender p.pid (toTopicKey topic) = false := by
  obtain ⟨nonneg, rfl⟩ := subscribe_done done
  constructor
  · exact fun remembers => (remembers _ .now).admitted
  · rintro ⟨nonzero, unmarked⟩ w₂ later
    refine (later.stored (toBytes_ne_nil nonzero) ⟨?_, ?_⟩).remembers (by omega) accounts
    · simp [World.commit, World.setAccountData, unmarked]
    · simp [World.commit, World.setAccountData, unmarked, toBytes_ne_nil nonzero]

end Payment

end Later

namespace Instances

def paymentWorld : World VaultAccount PlainEvent :=
  (hundredCoins.setProcessData 3 (toAdminAddressKey paymentName) someAddress.bytes).setProcessData
    2 (toTopicKey 7) (ascii "news")

theorem subscribed (a : Int) (passed : (paymentWorld.transact
      ((PaymentTx.subscribe someAddress 7 a).run someClient [[9], [9]])).isSome = true) :
    ∃ w, paymentWorld.transact ((PaymentTx.subscribe someAddress 7 a).run someClient [[9], [9]]) =
      some w := Option.isSome_iff_exists.mp passed

theorem coin_remembered : ∃ w₁ : World VaultAccount PlainEvent,
    paymentWorld.transact ((PaymentTx.subscribe someAddress 7 coin).run someClient
      [[9], [9]]) = some w₁ ∧
    ∀ w₂, Payment.Later someClient someAddress 7 w₁ w₂ →
      Payment.Remembers someClient someAddress 7 coin w₂ := by
  obtain ⟨w₁, done⟩ := subscribed coin (by decide +kernel)
  refine ⟨w₁, done, (Payment.remembered_iff someClient someAddress 7 coin [[9], [9]]
    paymentWorld w₁ (fun acc signers => ?_) done).mpr ⟨by decide, by decide⟩⟩
  cases acc with
  | single acc =>
    change SingleAccount.validate acc signers ≠ _
    unfold SingleAccount.validate
    grind
  | multi acc =>
    change MultiAccount.validate acc signers ≠ _
    unfold MultiAccount.validate
    grind

/-- A subscription with the amount zero passes and is lost at once. -/
theorem zero_not_remembered : ∃ w₁ : World VaultAccount PlainEvent,
    paymentWorld.transact ((PaymentTx.subscribe someAddress 7 0).run someClient [[9], [9]]) =
      some w₁ ∧ ¬Payment.Remembers someClient someAddress 7 0 w₁ := by
  obtain ⟨w₁, done⟩ := subscribed 0 (by decide +kernel)
  refine ⟨w₁, done, fun remembers => ?_⟩
  obtain ⟨_, rfl⟩ := Payment.subscribe_done done
  exact remembers.admitted.1 rfl

end Instances

end Fleta
