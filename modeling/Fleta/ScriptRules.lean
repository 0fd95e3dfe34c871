import Fleta.World

/-!
# Rules for scripts over key-value states

What a script does, said without the program that follows it: `RunsTo` for a script whose
result and final state are known, `Asks` for a script that only reads and whose success
says something of the state, and `Does` for a script that relates the state before to the
state after.
-/

namespace Fleta

open Script

variable {Acc Ev α β : Type}

section RunsTo

variable [Account Acc] [Event Ev] [Base58] (join : World Acc Ev → World Acc Ev → World Acc Ev)

/-- In the state `w` the script gives `result` and leaves `w'`. -/
def Script.RunsTo (script : Script Acc Ev α) (w : World Acc Ev) (result : α)
    (w' : World Acc Ev) : Prop :=
  ∀ next : α → Prog Acc Ev, (script next).exec join w = (next result).exec join w'

variable {join}

theorem Script.RunsTo.bind {script : Script Acc Ev α} {rest : α → Script Acc Ev β}
    {w mid w' : World Acc Ev} {result : α} {last : β} (first : script.RunsTo join w result mid)
    (second : (rest result).RunsTo join mid last w') :
    (script >>= rest).RunsTo join w last w' :=
  fun next => (first fun result => rest result next).trans (second next)

theorem Script.RunsTo.pure (result : α) (w : World Acc Ev) :
    (pure result : Script Acc Ev α).RunsTo join w result w := fun _ => rfl

end RunsTo

section Asks

variable [Account Acc] [Event Ev] [Base58] (join : World Acc Ev → World Acc Ev → World Acc Ev)

/-- The script only reads, and when it succeeds the fact holds. -/
def Script.Asks (fact : World Acc Ev → Prop) (script : Script Acc Ev α) : Prop :=
  ∀ w w' (next : α → Prog Acc Ev), (script next).exec join w = (.ok (), w') →
    fact w ∧ ∃ result, (next result).exec join w = (.ok (), w')

variable {join}

namespace Script.Asks

variable {fact : World Acc Ev → Prop} {script : Script Acc Ev α} {rest : α → Script Acc Ev β}

theorem first (asks : script.Asks join fact) (others : ∀ result, (rest result).Asks join fun _ => True) :
    (script >>= rest).Asks join fact := by
  intro w w' next done
  obtain ⟨holds, result, done⟩ := asks w w' _ done
  exact ⟨holds, (others result w w' next done).2⟩

theorem later (asks : script.Asks join fun _ => True) (others : ∀ result, (rest result).Asks join fact) :
    (script >>= rest).Asks join fact := by
  intro w w' next done
  obtain ⟨_, result, done⟩ := asks w w' _ done
  exact others result w w' next done

theorem pure (result : α) : (pure result : Script Acc Ev α).Asks join fun _ => True :=
  fun _ _ _ done => ⟨trivial, result, done⟩

theorem fail (err : Err) : (Script.fail err : Script Acc Ev α).Asks join fact :=
  fun _ _ _ done => by cases done

theorem failed (err : Err) : ((Script.fail err : Script Acc Ev α) >>= rest).Asks join fact :=
  fun _ _ _ done => by cases done

theorem known {known : Prop} (holds : known) (asks : script.Asks join fact) :
    script.Asks join fun w => known ∧ fact w := by
  intro w w' next done
  obtain ⟨fact, rest⟩ := asks w w' next done
  exact ⟨⟨holds, fact⟩, rest⟩

theorem check (result : Except Err α) :
    (Script.check result : Script Acc Ev α).Asks join fun _ => True := by
  cases result with
  | ok result => exact pure result
  | error err => exact fail err

variable (addr : Address)

theorem account : (Script.account addr : Script Acc Ev (Except Err Acc)).Asks join fun _ => True :=
  fun _ _ _ done => ⟨trivial, _, done⟩

theorem accountData (pid : UInt8) (name : Bytes) :
    (Script.accountData addr pid name : Script Acc Ev Bytes).Asks join fun _ => True :=
  fun _ _ _ done => ⟨trivial, _, done⟩

theorem processData (pid : UInt8) (name : Bytes) :
    (Script.processData pid name : Script Acc Ev Bytes).Asks join fun _ => True :=
  fun _ _ _ done => ⟨trivial, _, done⟩

theorem env : (Script.env : Script Acc Ev Env).Asks join fun _ => True :=
  fun _ _ _ done => ⟨trivial, _, done⟩

theorem each {items : List β} {body : β → Script Acc Ev Unit}
    (asks : ∀ item, (body item).Asks join fun _ => True) :
    (Script.each items body).Asks join fun _ => True := by
  induction items with
  | nil => exact pure ()
  | cons item items ih => exact (asks item).later fun _ => ih

theorem checkAccount :
    (Script.account addr >>= Script.check : Script Acc Ev Acc).Asks join
      fun w => w.hasAccount addr = .ok true := by
  intro w w' next done
  rw [bind_apply, exec_account, World.account] at done
  cases standing : w.standing addr with
  | absent | dropped | deleted =>
    rw [standing] at done
    cases done
  | present acc =>
    rw [standing] at done
    exact ⟨by simp [World.hasAccount, standing], acc, done⟩

end Script.Asks

end Asks

section Does

variable [Account Acc] [Event Ev] [Base58] (join : World Acc Ev → World Acc Ev → World Acc Ev)

/-- Wherever the script succeeds, the states before and after it are related. -/
def Script.Does (rel : World Acc Ev → World Acc Ev → Prop) (script : Script Acc Ev α) : Prop :=
  ∀ w w' (next : α → Prog Acc Ev), (script next).exec join w = (.ok (), w') →
    ∃ result mid, rel w mid ∧ (next result).exec join mid = (.ok (), w')

variable {join}

namespace Script.Does

variable {rel : World Acc Ev → World Acc Ev → Prop} {script : Script Acc Ev α}
  {rest : α → Script Acc Ev β}

theorem whole {script : Script Acc Ev Unit} (does : script.Does join rel) {w w' : World Acc Ev}
    (done : script.toProg.exec join w = (.ok (), w')) : rel w w' := by
  obtain ⟨_, mid, related, last⟩ := does w w' _ done
  obtain rfl : mid = w' := (Prod.mk.inj last).2
  exact related

theorem fail (err : Err) : (Script.fail err : Script Acc Ev α).Does join rel :=
  fun _ _ _ done => by cases done

theorem of_asks [Std.Refl rel] {fact : World Acc Ev → Prop} (asks : script.Asks join fact) :
    script.Does join rel := by
  intro w w' next done
  obtain ⟨_, result, last⟩ := asks w w' next done
  exact ⟨result, w, Std.Refl.refl w, last⟩

theorem check [Std.Refl rel] (result : Except Err α) :
    (Script.check result : Script Acc Ev α).Does join rel :=
  of_asks (.check result)

theorem processData [Std.Refl rel] (pid : UInt8) (name : Bytes) :
    (Script.processData pid name : Script Acc Ev Bytes).Does join rel :=
  of_asks (.processData pid name)

theorem hasAccount [Std.Refl rel] (addr : Address) :
    (Script.hasAccount addr : Script Acc Ev (Except Err Bool)).Does join rel :=
  fun w _ _ done => ⟨w.hasAccount addr, w, Std.Refl.refl w, done⟩

theorem bind [IsTrans _ rel] (first : script.Does join rel)
    (second : ∀ result, (rest result).Does join rel) : (script >>= rest).Does join rel := by
  intro w w' next done
  obtain ⟨result, mid, related, done⟩ := first w w' _ done
  obtain ⟨last, mid', related', done⟩ := second result mid w' next done
  exact ⟨last, mid', IsTrans.trans _ _ _ related related', done⟩

theorem within (merges : ∀ w inner, rel w.snapshot inner → rel w (join w inner))
    {body : Script Acc Ev Unit} (does : body.Does join rel) :
    (Script.within body).Does join rel := by
  intro w w' next done
  obtain ⟨inner, ran, done⟩ := Script.within_ok done
  exact ⟨(), _, merges w inner (does.whole ran), done⟩

end Script.Does

end Does

inductive World.Chain {ι : Type} (rel : ι → World Acc Ev → World Acc Ev → Prop) :
    List ι → World Acc Ev → World Acc Ev → Prop
  | nil (w : World Acc Ev) : Chain rel [] w w
  | cons {item : ι} {items : List ι} {w mid w' : World Acc Ev} (step : rel item w mid)
      (rest : Chain rel items mid w') : Chain rel (item :: items) w w'

theorem Script.Does.each [Account Acc] [Event Ev] [Base58]
    {join : World Acc Ev → World Acc Ev → World Acc Ev} {ι : Type}
    {rel : ι → World Acc Ev → World Acc Ev → Prop} {items : List ι}
    {body : ι → Script Acc Ev Unit} (does : ∀ item, (body item).Does join (rel item)) :
    (Script.each items body).Does join (World.Chain rel items) := by
  induction items with
  | nil => exact fun w _ _ done => ⟨(), w, .nil w, done⟩
  | cons item items ih =>
    intro w w' next done
    obtain ⟨_, mid, step, done⟩ := does item w w' _ done
    obtain ⟨result, last, rest, done⟩ := ih mid w' next done
    exact ⟨result, last, .cons step rest, done⟩

/-- A process key of the set that is not marked as emptied keeps its value and stays
unmarked. -/
def World.Untouched (keys : UInt8 → Bytes → Prop) (w w' : World Acc Ev) : Prop :=
  ∀ pid name, keys pid name → w.emptiedProcess pid name = false →
    w'.emptiedProcess pid name = false ∧ w'.processData pid name = w.processData pid name

namespace World.Untouched

variable {keys : UInt8 → Bytes → Prop} {w w' : World Acc Ev}

instance : Std.Refl (World.Untouched keys : World Acc Ev → World Acc Ev → Prop) where
  refl _ _ _ _ unmarked := ⟨unmarked, rfl⟩

instance : IsTrans (World Acc Ev) (World.Untouched keys) where
  trans _ _ _ first second pid name mem unmarked :=
    have before := first pid name mem unmarked
    have after := second pid name mem before.1
    ⟨after.1, after.2.trans before.2⟩

theorem setAccountData (addr : Address) (pid : UInt8) (name value : Bytes) :
    w.Untouched keys (w.setAccountData addr pid name value) :=
  fun _ _ _ unmarked => ⟨unmarked, rfl⟩

theorem setProcessData {pid : UInt8} {name : Bytes} (other : ¬keys pid name) (value : Bytes) :
    w.Untouched keys (w.setProcessData pid name value) := by
  intro pid' name' mem unmarked
  have elsewhere : ¬(pid' = pid ∧ name' = name) := by
    rintro ⟨rfl, rfl⟩
    exact other mem
  simp only [World.setProcessData, if_neg elsewhere]
  exact ⟨unmarked, trivial⟩

theorem commit (inner : w.snapshot.Untouched keys w') : w.Untouched keys (w.commit w') := by
  intro pid name mem unmarked
  have same := inner pid name mem rfl
  simp only [World.commit, unmarked, same.1, Bool.or_self, Bool.false_eq_true, if_false]
  exact ⟨trivial, same.2⟩

end World.Untouched

end Fleta
