import Fleta.FormulatorMerge
import Fleta.RankInvariant

/-!
# Panics of the validation

`ValidateSignature` reads the first signature before it looks at the number of signatures,
and `Validate` of `CreateSigma` and `CreateOmega` reads the first formulator of the list
before it looks at its length. Nothing else in them can panic, as long as the decoders of
policies and of consensus data and the recovery of keys return errors instead.
-/

namespace Fleta

open Script FormulatorCast

def NoPanic {Value : Type} (result : Except Err Value) : Prop := result ≠ .error .panicked

@[simp] theorem noPanic_ok {Value : Type} (value : Value) : NoPanic (.ok value) := by simp [NoPanic]

@[simp] theorem noPanic_error {Value : Type} {err : Err} :
    NoPanic (.error err : Except Err Value) ↔ err ≠ .panicked := by
  simp [NoPanic]

namespace Pof

variable [HashFunction] [HeaderCodec] [Codec] {recover : Hash256 → Signature → Except Err PublicHash}

/-- The generator of the header is the formulator whose turn it is. -/
def Consensus.OnTurn (bh : Header) (cs : Consensus) : Prop :=
  ∃ timeoutCount top, decodeConsensusData bh.consensusData = .ok timeoutCount ∧
    cs.rt.topRank timeoutCount.toNat = .ok top ∧ top.address = bh.generator

omit [HashFunction] [HeaderCodec] [Codec] in
theorem validateSignaturesMajority_noPanic {recover : Signature → Except Err PublicHash}
    (keys : ∀ sig, NoPanic (recover sig)) (sigs : List Signature) (observers : List PublicHash) :
    NoPanic (validateSignaturesMajority recover sigs observers) := by
  have signer : ∀ sig, NoPanic (signerIn recover observers sig) := by
    intro sig
    have calm := keys sig
    unfold signerIn
    cases recovered : recover sig with
    | error err => simpa [recovered] using calm
    | ok pubhash =>
      dsimp only
      split <;> simp
  have signers : NoPanic (sigs.mapM (signerIn recover observers)) := by
    induction sigs with
    | nil => exact noPanic_ok []
    | cons sig rest ih =>
      have calm := signer sig
      rw [List.mapM_cons]
      cases first : signerIn recover observers sig with
      | error err => simpa [first, bind, Except.bind] using calm
      | ok pubhash =>
        cases later : rest.mapM (signerIn recover observers) with
        | error err => simpa [later, bind, Except.bind] using ih
        | ok others => exact noPanic_ok (pubhash :: others)
  unfold validateSignaturesMajority
  split
  · simp
  cases known : sigs.mapM (signerIn recover observers) with
  | error err => simpa [known] using signers
  | ok others =>
    dsimp only
    split <;> simp

theorem Consensus.validateSignature_noPanic_iff
    (datas : ∀ bs, NoPanic (Codec.decodeUint32 bs)) (keys : ∀ digest sig, NoPanic (recover digest sig))
    (bh : Header) (sigs : List Signature) (cs : Consensus) :
    NoPanic (cs.validateSignature recover bh sigs) ↔ (cs.OnTurn bh → sigs ≠ []) := by
  have decodes := datas bh.consensusData
  unfold Consensus.validateSignature Consensus.OnTurn decodeConsensusData
  cases decoded : Codec.decodeUint32 bh.consensusData with
  | error err => simpa [decoded] using decodes
  | ok timeoutCount =>
    dsimp only
    cases found : cs.rt.topRank timeoutCount.toNat with
    | error err =>
      have missing : err ≠ .panicked := by
        unfold RankTable.topRank at found
        split at found <;> cases found
        decide
      simpa [found] using missing
    | ok top =>
      dsimp only
      by_cases turn : top.address = bh.generator
      · rw [if_neg (not_not_intro turn)]
        cases sigs with
        | nil => simp [found, turn]
        | cons generatorSignature observerSignatures =>
          have recovers := keys bh.hash generatorSignature
          dsimp only
          cases recovered : recover bh.hash generatorSignature with
          | error err => simpa [recovered] using recovers
          | ok pubhash =>
            dsimp only
            split
            · simp
            split
            · simp
            simpa using validateSignaturesMajority_noPanic (keys _) observerSignatures cs.observerKeys
      · rw [if_pos turn]
        simp [found, turn]

end Pof

variable {Acc Ev α β : Type} [Account Acc] [Event Ev] [Base58]
  (join : World Acc Ev → World Acc Ev → World Acc Ev)

/-- A program panics behind the script only. What follows may rely on the result. -/
def Script.Calm (script : Script Acc Ev α) (post : α → Prop) : Prop :=
  ∀ next : α → Prog Acc Ev, (∀ result, post result → ∀ w, NoPanic ((next result).exec join w).1) →
    ∀ w, NoPanic ((script next).exec join w).1

variable {join}

namespace Script.Calm

variable {script : Script Acc Ev α} {rest : α → Script Acc Ev β} {mid : α → Prop} {post : β → Prop}

theorem bind (first : script.Calm join mid)
    (second : ∀ result, mid result → (rest result).Calm join post) :
    (script >>= rest).Calm join post := by
  intro next calm
  exact first _ fun result holds => second result holds next calm

theorem pure {result : α} (holds : mid result) :
    (Pure.pure result : Script Acc Ev α).Calm join mid :=
  fun _ calm => calm result holds

theorem returns (first : script.Calm join mid) (value : α → β) :
    (do return value (← script) : Script Acc Ev β).Calm join fun _ => True :=
  first.bind fun _ _ => pure trivial

theorem fail {err : Err} (other : err ≠ .panicked) :
    (Script.fail err : Script Acc Ev α).Calm join mid :=
  fun _ _ _ panics => other (Except.error.inj panics)

theorem check {result : Except Err α} (calm : NoPanic result) :
    (Script.check result : Script Acc Ev α).Calm join fun _ => True := by
  cases result with
  | ok given => exact pure trivial
  | error err => exact fail fun same => calm (same ▸ rfl)

theorem env : (Script.env : Script Acc Ev Env).Calm join fun _ => True :=
  fun _ calm w => calm w.env trivial w

theorem processData (pid : UInt8) (name : Bytes) :
    (Script.processData pid name : Script Acc Ev Bytes).Calm join fun _ => True :=
  fun _ calm w => calm (w.processData pid name) trivial w

variable (addr : Address)

theorem accountData (pid : UInt8) (name : Bytes) :
    (Script.accountData addr pid name : Script Acc Ev Bytes).Calm join fun _ => True :=
  fun _ calm w => calm (w.accountData addr pid name) trivial w

theorem hasAccount : (Script.hasAccount addr : Script Acc Ev _).Calm join NoPanic := by
  intro next calm w
  apply calm (w.hasAccount addr)
  unfold World.hasAccount
  split <;> simp [NoPanic]

theorem account : (Script.account addr : Script Acc Ev _).Calm join NoPanic := by
  intro next calm w
  apply calm (w.account addr)
  unfold World.account
  split <;> simp [NoPanic]

theorem each {items : List α} {body : α → Script Acc Ev Unit}
    (calm : ∀ item, (body item).Calm join fun _ => True) :
    (Script.each items body).Calm join fun _ => True := by
  induction items with
  | nil => exact pure trivial
  | cons item items ih => exact (calm item).bind fun _ _ => ih

end Script.Calm

theorem Vault.checkFeePayable_calm (v : Vault) (sender : Address) :
    (v.checkFeePayable sender : Script Acc Ev _).Calm join NoPanic := by
  apply (Calm.hasAccount sender).bind
  intro present calm
  split
  · exact Calm.pure fun panics => calm (Except.error.inj panics ▸ rfl)
  · exact Calm.pure (by simp [NoPanic])
  · apply ((Calm.processData _ _).returns _).bind
    intro fee _
    apply ((Calm.accountData _ _ _).returns _).bind
    intro b _
    apply Calm.pure
    dsimp only
    split <;> simp [NoPanic]

section Merge

variable [SignedAccount Acc] [FormulatorCast Acc] [PolicyCodecs] (rule : MergeRule) (p : Formulator)

omit [PolicyCodecs] in
theorem MergeRule.validateOne_calm (policy : MergePolicy) (rewardPolicy : RewardPolicy)
    (entry : Address × PublicHash) :
    (rule.validateOne p policy rewardPolicy entry : Script Acc Ev Unit).Calm join fun _ => True := by
  have signed : ∀ frAcc : FormulatorAccount, NoPanic (frAcc.validate [entry.2]) := by
    intro frAcc
    unfold FormulatorAccount.validate
    dsimp only
    split <;> simp [NoPanic]
  apply (Calm.account _).bind
  intro found calm
  apply (Calm.check calm).bind
  intro acc _
  split
  · exact Calm.fail (by decide)
  split
  · exact Calm.fail (by decide)
  apply Calm.env.bind
  intro env _
  split
  · exact Calm.fail (by decide)
  apply (Calm.check (signed _)).bind
  intro _ _
  apply ((Calm.processData _ _).returns _).bind
  intro upgraded _
  split
  · split
    · exact .fail (by decide)
    · exact .pure trivial
  · exact .pure trivial

theorem MergeRule.validate_noPanic_iff (policies : ∀ bs, NoPanic (rule.policy bs))
    (rewards : ∀ bs, NoPanic (PolicyCodecs.rewardPolicy bs)) (refused : rule.notAllowed ≠ .panicked)
    (signers : List PublicHash) (tx : MergeTx) (w : World Acc Ev) :
    NoPanic ((rule.validate p signers tx : Script Acc Ev Unit).toProg.exec join w).1 ↔
      tx.formulators ≠ [] := by
  constructor
  · intro calm empty
    rw [MergeRule.validate, empty] at calm
    exact calm rfl
  · intro some
    refine (?_ : (rule.validate p signers tx : Script Acc Ev Unit).Calm join fun _ => True) _
      (fun _ _ _ => by simp [NoPanic]) w
    unfold MergeRule.validate
    rw [if_neg (by simpa using some)]
    split
    · exact .fail (by decide)
    split
    · exact Calm.fail (by decide)
    apply (Calm.processData _ _).bind
    intro bs _
    apply (Calm.check (policies bs)).bind
    intro policy _
    split
    · exact Calm.fail refused
    split
    · exact Calm.fail (by decide)
    apply ((Calm.processData _ _).bind fun bs _ => Calm.check (rewards bs)).bind
    intro rewardPolicy _
    apply (Calm.each (rule.validateOne_calm p policy rewardPolicy)).bind
    intro _ _
    apply (p.vault.checkFeePayable_calm tx.sender).bind
    exact fun _ calm => Calm.check calm

end Merge

open Pof

variable [SignedAccount Acc] [FormulatorCast Acc] [PolicyCodecs] [HashFunction] [HeaderCodec] [Codec]

/-- The decoders and the recovery of keys return errors and do not panic. -/
structure ReturnErrors (recover : Hash256 → Signature → Except Err PublicHash) : Prop where
  consensusData : ∀ bs, NoPanic (Codec.decodeUint32 bs)
  recovery : ∀ digest sig, NoPanic (recover digest sig)
  rewardPolicy : ∀ bs, NoPanic (PolicyCodecs.rewardPolicy bs)
  sigmaPolicy : ∀ bs, NoPanic (PolicyCodecs.sigmaPolicy bs)
  omegaPolicy : ∀ bs, NoPanic (PolicyCodecs.omegaPolicy bs)

theorem validation_noPanic_iff {recover : Hash256 → Signature → Except Err PublicHash}
    (errors : ReturnErrors recover) (cs : Pof.Consensus) (bh : Header) (sigs : List Signature)
    (p : Formulator) (sigma omega : MergeTx) (signers : List PublicHash) (w : World Acc Ev) :
    (NoPanic (cs.validateSignature recover bh sigs) ∧
      NoPanic ((createSigma.validate p signers sigma : Script Acc Ev Unit).toProg.exec join w).1 ∧
      NoPanic ((createOmega.validate p signers omega : Script Acc Ev Unit).toProg.exec join w).1) ↔
    (cs.OnTurn bh → sigs ≠ []) ∧ sigma.formulators ≠ [] ∧ omega.formulators ≠ [] := by
  rw [Consensus.validateSignature_noPanic_iff errors.consensusData errors.recovery,
    MergeRule.validate_noPanic_iff createSigma p errors.sigmaPolicy errors.rewardPolicy Err.noConfusion,
    MergeRule.validate_noPanic_iff createOmega p errors.omegaPolicy errors.rewardPolicy Err.noConfusion]

end Fleta

namespace Fleta.RankInstances

open Pof Instances

def noSigner : Hash256 → Signature → Except Err PublicHash := fun _ _ => .error .invalidSignature

def oneCandidate : Pof.Consensus := ⟨1, 0, .empty, ⟨0, [⟨someAddress, [9], 0, []⟩]⟩⟩

def ownHeader : Header := (turnBlock 1 someAddress 0).header

theorem signed_header_validated :
    ReturnErrors noSigner ∧
      NoPanic (oneCandidate.validateSignature noSigner ownHeader [[7]]) ∧
      NoPanic ((createSigma.validate someProcess [] ⟨someAddress, [someAddress]⟩ :
        Script ChainAccount PlainEvent Unit).toProg.exec World.commit Instances.twoFormulators).1 ∧
      NoPanic ((createOmega.validate someProcess [] ⟨someAddress, [someAddress]⟩ :
        Script ChainAccount PlainEvent Unit).toProg.exec World.commit Instances.twoFormulators).1 := by
  have errors : ReturnErrors noSigner :=
    ⟨fun _ => noPanic_ok _, fun _ _ => noPanic_error.mpr (by decide), fun _ => noPanic_ok _,
      fun _ => noPanic_ok _, fun _ => noPanic_ok _⟩
  exact ⟨errors, (validation_noPanic_iff errors oneCandidate ownHeader [[7]] someProcess
    ⟨someAddress, [someAddress]⟩ ⟨someAddress, [someAddress]⟩ [] Instances.twoFormulators).mpr
      ⟨fun _ => by decide, by decide, by decide⟩⟩

/-- A header of the formulator on turn without signatures, and merges of no formulators. -/
theorem empty_lists_panic :
    ¬NoPanic (oneCandidate.validateSignature noSigner ownHeader []) ∧
      ¬NoPanic ((createSigma.validate someProcess [] ⟨someAddress, []⟩ :
        Script ChainAccount PlainEvent Unit).toProg.exec World.commit Instances.twoFormulators).1 ∧
      ¬NoPanic ((createOmega.validate someProcess [] ⟨someAddress, []⟩ :
        Script ChainAccount PlainEvent Unit).toProg.exec World.commit Instances.twoFormulators).1 := by
  unfold NoPanic
  decide +kernel

end Fleta.RankInstances
