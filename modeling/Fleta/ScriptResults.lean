import Fleta.ScriptRules

/-!
# Scripts with results

In a state a script ends with an error, whatever follows it, or it runs to a result and a
state. `Ends` says so, together with what holds of the result. Its rules are those of a
weakest precondition, in the way scripts are written: a sequence, a loop with an
accumulator, a read, a write. An error satisfies every condition.
-/

namespace Fleta

open Script

variable {Acc Ev α β σ ι : Type} [Account Acc] [Event Ev] [Base58]
  (join : World Acc Ev → World Acc Ev → World Acc Ev)

/-- The script runs to a result and a state of which `post` holds, or ends with an error. -/
def Script.Ends (script : Script Acc Ev α) (w : World Acc Ev) (post : α → World Acc Ev → Prop) :
    Prop :=
  (∃ result w', script.RunsTo join w result w' ∧ post result w') ∨
    ∃ err w', ∀ next : α → Prog Acc Ev, (script next).exec join w = (.error err, w')

variable {join}

/-- A script has one outcome: a continuation could tell two of them apart. -/
theorem Script.RunsTo.unique {script : Script Acc Ev α} {w w' w'' : World Acc Ev}
    {result other : α} (first : script.RunsTo join w result w')
    (second : script.RunsTo join w other w'') : result = other ∧ w' = w'' := by
  classical
  let telling : α → Prog Acc Ev := fun given =>
    .done (if given = result then .ok () else .error .notExistAccount)
  have same := (first telling).symm.trans (second telling)
  simp only [telling, exec_done, if_pos] at same
  obtain ⟨outcome, state⟩ := Prod.mk.inj same
  split at outcome
  · rename_i equal
    exact ⟨equal.symm, state⟩
  · cases outcome

namespace Script.Ends

variable {post : α → World Acc Ev → Prop} {script : Script Acc Ev α} {rest : α → Script Acc Ev β}
  {w : World Acc Ev} {w' : World Acc Ev}

section

variable (ends : script.Ends join w post)

include ends

theorem of_runsTo {result : α} (runs : script.RunsTo join w result w') : post result w' := by
  rcases ends with ⟨other, w'', runs', holds⟩ | ⟨err, w'', fails⟩
  · obtain ⟨rfl, rfl⟩ := runs.unique runs'
    exact holds
  · have outcome := (runs fun _ => .done (.ok ())).symm.trans (fails _)
    cases congrArg Prod.fst outcome

theorem of_ok {next : α → Prog Acc Ev} (done : (script next).exec join w = (.ok (), w')) :
    ∃ result mid, script.RunsTo join w result mid ∧ post result mid ∧
      (next result).exec join mid = (.ok (), w') := by
  rcases ends with ⟨result, mid, runs, holds⟩ | ⟨err, mid, fails⟩
  · exact ⟨result, mid, runs, holds, (runs next).symm.trans done⟩
  · rw [fails next] at done
    cases done

variable {post' : α → World Acc Ev → Prop}

theorem mono
    (weaker : ∀ result w', post result w' → post' result w') : script.Ends join w post' := by
  rcases ends with ⟨result, w', runs, holds⟩ | fails
  · exact .inl ⟨result, w', runs, weaker result w' holds⟩
  · exact .inr fails

theorem and (ends' : script.Ends join w post') :
    script.Ends join w fun result w' => post result w' ∧ post' result w' := by
  rcases ends with ⟨result, w', runs, holds⟩ | fails
  · exact .inl ⟨result, w', runs, holds, ends'.of_runsTo runs⟩
  · exact .inr fails

end

theorem of_run {result : α} (runs : script.RunsTo join w result w')
    (holds : post result w') : script.Ends join w post :=
  .inl ⟨result, w', runs, holds⟩

theorem pure {result : α} (holds : post result w) :
    (Pure.pure result : Script Acc Ev α).Ends join w post :=
  of_run (.pure result w) holds

theorem fail (err : Err) : (Script.fail err : Script Acc Ev α).Ends join w post :=
  .inr ⟨err, w, fun _ => rfl⟩

theorem bind {post : β → World Acc Ev → Prop}
    (ends : script.Ends join w fun result mid => (rest result).Ends join mid post) :
    (script >>= rest).Ends join w post := by
  rcases ends with ⟨result, mid, runs, ⟨last, w', runs', holds⟩ | ⟨err, w', fails⟩⟩ | ⟨err, w', fails⟩
  · exact of_run (runs.bind runs') holds
  · exact .inr ⟨err, w', fun next => (runs _).trans (fails next)⟩
  · exact .inr ⟨err, w', fun next => fails _⟩

theorem check {result : Except Err α} (holds : ∀ given, result = .ok given → post given w) :
    (Script.check result : Script Acc Ev α).Ends join w post := by
  cases result with
  | ok given => exact pure (holds given rfl)
  | error err => exact fail err

theorem env {post : Env → World Acc Ev → Prop} (holds : post w.env w) :
    (Script.env : Script Acc Ev Env).Ends join w post :=
  of_run (fun _ => rfl) holds

variable {addr : Address}

theorem account {post : Except Err Acc → World Acc Ev → Prop}
    (holds : post (w.account addr) w) : (Script.account addr).Ends join w post :=
  of_run (fun _ => rfl) holds

theorem updateAccount {change : Acc → Acc} {post : Except Err Acc → World Acc Ev → Prop}
    (holds : post (w.account addr) (w.updateAccount addr change)) :
    (Script.updateAccount addr change).Ends join w post :=
  of_run (fun _ => rfl) holds

variable {pid : UInt8} {name : Bytes}

theorem accountData
    {post : Bytes → World Acc Ev → Prop} (holds : post (w.accountData addr pid name) w) :
    (Script.accountData addr pid name).Ends join w post :=
  of_run (fun _ => rfl) holds

theorem setAccountData {value : Bytes}
    {post : Unit → World Acc Ev → Prop} (holds : post () (w.setAccountData addr pid name value)) :
    (Script.setAccountData addr pid name value).Ends join w post :=
  of_run (fun _ => rfl) holds

theorem processData {post : Bytes → World Acc Ev → Prop} (holds : post (w.processData pid name) w) :
    (Script.processData pid name).Ends join w post :=
  of_run (fun _ => rfl) holds

theorem setProcessData {value : Bytes} {post : Unit → World Acc Ev → Prop}
    (holds : post () (w.setProcessData pid name value)) :
    (Script.setProcessData pid name value).Ends join w post :=
  of_run (fun _ => rfl) holds

/-- The rule of a loop. Its invariant may speak of the items that are left. -/
theorem foldlM (inv : List ι → σ → World Acc Ev → Prop) {body : σ → ι → Script Acc Ev σ}
    (step : ∀ item items state w, inv (item :: items) state w →
      (body state item).Ends join w (inv items)) {items : List ι} {state : σ}
    (start : inv items state w) : (items.foldlM body state).Ends join w (inv []) := by
  induction items generalizing state w with
  | nil => exact pure start
  | cons item items ih =>
    rw [List.foldlM_cons]
    apply bind
    apply (step item items state w start).mono
    intro state' mid holds
    exact ih holds

end Script.Ends

variable (join)

/-- Whatever the script does keeps to the relation. -/
def Script.Keeps (rel : World Acc Ev → World Acc Ev → Prop) (script : Script Acc Ev α) : Prop :=
  ∀ w, script.Ends join w fun _ w' => rel w w'

variable {join}

namespace Script.Keeps

variable {rel : World Acc Ev → World Acc Ev → Prop} {script : Script Acc Ev α}
  {rest : α → Script Acc Ev β}

theorem fail (err : Err) : (Script.fail err : Script Acc Ev α).Keeps join rel :=
  fun _ => .fail err

variable {name value : Bytes} {addr : Address}

theorem setAccountData {pid : UInt8} (related : ∀ w, rel w (w.setAccountData addr pid name value)) :
    (Script.setAccountData addr pid name value : Script Acc Ev Unit).Keeps join rel :=
  fun w => .setAccountData (related w)

theorem setProcessData {pid : UInt8} (related : ∀ w, rel w (w.setProcessData pid name value)) :
    (Script.setProcessData pid name value : Script Acc Ev Unit).Keeps join rel :=
  fun w => .setProcessData (related w)

theorem updateAccount {change : Acc → Acc} (related : ∀ w, rel w (w.updateAccount addr change)) :
    (Script.updateAccount addr change : Script Acc Ev (Except Err Acc)).Keeps join rel :=
  fun w => .updateAccount (related w)

theorem deleteAccount {acc : Acc} (related : ∀ w : World Acc Ev, rel w (w.deleteAccount acc).2) :
    (Script.deleteAccount acc : Script Acc Ev (Except Err Unit)).Keeps join rel :=
  fun w => .of_run (exec_deleteAccount join w acc) (related w)

theorem createAccountIgnoreDelete {acc : Acc} (related : ∀ w : World Acc Ev, rel w (w.insertAccount
      (fun err => err == .notExistAccount || err == .deletedAccount) acc).2) :
    (Script.createAccountIgnoreDelete acc : Script Acc Ev (Except Err Unit)).Keeps join rel :=
  fun w => .of_run (fun _ => rfl) (related w)

theorem emitEvent {event : Ev} (related : ∀ w : World Acc Ev, rel w (w.emitEvent event)) :
    (Script.emitEvent event : Script Acc Ev Unit).Keeps join rel :=
  fun w => .of_run (fun _ => rfl) (related w)

section Refl

variable [Std.Refl rel]

theorem of_reads (reads : ∀ w, script.Ends join w fun _ w' => w' = w) : script.Keeps join rel := by
  intro w
  apply (reads w).mono
  rintro _ _ rfl
  exact Std.Refl.refl _

theorem pure (result : α) : (Pure.pure result : Script Acc Ev α).Keeps join rel :=
  of_reads fun _ => .pure rfl

theorem check (result : Except Err α) : (Script.check result : Script Acc Ev α).Keeps join rel :=
  of_reads fun _ => .check fun _ _ => rfl

theorem env : (Script.env : Script Acc Ev Env).Keeps join rel := of_reads fun _ => Ends.env rfl

variable (addr : Address)

theorem account : (Script.account addr : Script Acc Ev (Except Err Acc)).Keeps join rel :=
  of_reads fun _ => Ends.account rfl

theorem accountData (pid : UInt8) (name : Bytes) :
    (Script.accountData addr pid name : Script Acc Ev Bytes).Keeps join rel :=
  of_reads fun _ => Ends.accountData rfl

theorem processData (pid : UInt8) (name : Bytes) :
    (Script.processData pid name : Script Acc Ev Bytes).Keeps join rel :=
  of_reads fun _ => Ends.processData rfl

end Refl

variable [IsTrans (World Acc Ev) rel]

theorem bind (first : script.Keeps join rel) (second : ∀ result, (rest result).Keeps join rel) :
    (script >>= rest).Keeps join rel := by
  intro w
  apply Ends.bind
  apply (first w).mono
  intro result mid related
  apply (second result mid).mono
  intro _ w' related'
  exact IsTrans.trans _ _ _ related related'

variable [Std.Refl rel]

theorem map (first : script.Keeps join rel) {f : α → β} :
    (script >>= fun result => Pure.pure (f result)).Keeps join rel :=
  first.bind fun _ => pure _

theorem foldlM {body : σ → ι → Script Acc Ev σ}
    (step : ∀ state item, (body state item).Keeps join rel) (items : List ι) (state : σ) :
    (items.foldlM body state).Keeps join rel := by
  induction items generalizing state with
  | nil => exact pure state
  | cons item items ih => exact (step state item).bind ih

theorem each {body : ι → Script Acc Ev Unit} (step : ∀ item, (body item).Keeps join rel)
    (items : List ι) : (Script.each items body).Keeps join rel := by
  induction items with
  | nil => exact pure ()
  | cons item items ih => exact (step item).bind fun _ => ih

end Script.Keeps

end Fleta
