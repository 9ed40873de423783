/-
The stages of a file store's callers.

What is left of a procedure shows only its next act, so that facts about callers are said
of stages instead (`FileStage`): a stage knows the record that a commit writes, and its act
and the stage after it are those of the procedure (`FileStage.Follows`). What holds of the
stages first, and what every turn keeps, holds after all turns
(`Contention.exists_stages`).
-/
import Mathlib.Data.List.Induction
import Mathlib.Logic.Function.Basic
import ScopedSettings.Proofs.Store.FileRecord
import ScopedSettings.Store.Contention

namespace ScopedSettings

open Files FileStore

namespace FileStore

/-- What a load is answered with, by the text it has read. -/
def answerOf (path : String) : Except Failure String → Except SettingsError Settings
  | .ok text => Settings.ofText text
  | .error .notFound => .error .recordNotFound
  | .error f => .error (unavailable .read path f)

theorem recordAt_eq (path : String) (t : RawTree) :
    recordAt path t = answerOf path (t.readText path) :=
  rfl

/-- A commit with its last act. -/
def closing (answer : Except SettingsError Settings) :
    FileProcedure (Except SettingsError Settings) :=
  .step .release fun _ => .done answer

end FileStore

/-- How far a caller of a file store has come. -/
inductive FileStage
  | loading
  | waiting (u : Update) (now : Instant)
  | basing (u : Update) (now : Instant)
  | preparing (s : Settings)
  | creating (s : Settings)
  | writing (s : Settings) (id : FileId)
  | syncing (s : Settings) (id : FileId)
  | replacing (s : Settings)
  | removing (e : SettingsError)
  | flushing (s : Settings)
  | releasing (answer : Except SettingsError Settings)
  | ended (answer : Except SettingsError Settings)
  /-- Dropped, or no caller at all. -/
  | gone

namespace FileStage

/-- The first stage of what a caller has come for. -/
def first : FileTask → FileStage
  | .load => .loading
  | .commit u now => .waiting u now

def act? (path : String) : FileStage → Option FileAct
  | .loading => some (.readText path)
  | .waiting _ _ => some .acquire
  | .basing _ _ => some (.readText path)
  | .preparing _ => some (.makeDirectories (parent path))
  | .creating _ => some (.create (temporarySibling path))
  | .writing s id => some (.write id s.prettyText.toUTF8)
  | .syncing _ id => some (.sync id)
  | .replacing _ => some (.rename (temporarySibling path) path)
  | .removing _ => some (.remove (temporarySibling path))
  | .flushing _ => some (.syncDirectory (parent path))
  | .releasing _ => some .release
  | .ended _ | .gone => none

/-- The stage of a commit that has read the record. -/
def based (u : Update) (now : Instant) : Except SettingsError Settings → FileStage
  | .ok base => .preparing (u.apply base now)
  | .error e => .releasing (.error e)

def next (path : String) : FileStage → (a : FileAct) → a.Answer → FileStage
  | .loading, .readText _, x => .ended (answerOf path x)
  | .waiting u now, .acquire, _ => .basing u now
  | .basing u now, .readText _, x => based u now (baseOf (answerOf path x))
  | .preparing s, .makeDirectories _, .ok () => .creating s
  | .preparing _, .makeDirectories _, .error f =>
    .releasing (.error (unavailable .makeDirectories path f))
  | .creating s, .create _, .ok id => .writing s id
  | .creating _, .create _, .error f =>
    .releasing (.error (unavailable .create path f))
  | .writing s id, .write _ _, .ok () => .syncing s id
  | .writing _ _, .write _ _, .error f => .removing (unavailable .write path f)
  | .syncing s _, .sync _, .ok () => .replacing s
  | .syncing _ _, .sync _, .error f => .removing (unavailable .sync path f)
  | .replacing s, .rename _ _, .ok () => .flushing s
  | .replacing _, .rename _ _, .error f => .removing (unavailable .replace path f)
  | .removing e, .remove _, _ => .releasing (.error e)
  | .flushing s, .syncDirectory _, .ok () => .releasing (.ok s)
  | .flushing _, .syncDirectory _, .error f =>
    .releasing (.error (unavailable .syncDirectory path f))
  | .releasing answer, .release, _ => .ended answer
  | st, _, _ => st

/-- Does a procedure go on as a stage does? -/
def Follows (path : String) :
    FileProcedure (Except SettingsError Settings) → FileStage → Prop
  | .done answer, st => st = .ended answer
  | .step a rest, st => st.act? path = some a ∧ ∀ x, Follows path (rest x) (st.next path a x)

end FileStage

namespace Contention

variable {path : String} {c : Contention} {stages : Nat → FileStage}

/-- Are the callers at the given stages? -/
def IsAt (path : String) (c : Contention) (stages : Nat → FileStage) : Prop :=
  ∀ i, match c.procedure? i with
    | some p => (FileStage.Follows path p (stages i))
    | none => stages i = .gone

theorem IsAt.act?_eq (h : IsAt path c stages) (i : Nat) :
    (stages i).act? path = c.act? i := by
  have hi := h i
  unfold act?
  cases hp : c.procedure? i with
  | none =>
    rw [hp] at hi
    rw [hi]
    rfl
  | some p =>
    rw [hp] at hi
    cases p with
    | done answer =>
      rw [show stages i = _ from hi]
      rfl
    | step a rest => exact hi.1

theorem IsAt.answer?_eq (h : IsAt path c stages) {i : Nat}
    {answer : Except SettingsError Settings} (ha : c.answer? i = some answer) :
    stages i = .ended answer := by
  have hi := h i
  unfold answer? at ha
  split at ha
  · rename_i r hp
    cases ha
    rw [hp] at hi
    exact hi
  all_goals cases ha

theorem exists_step_of_act? {i : Nat} {a : FileAct} (h : c.act? i = some a) :
    ∃ next, c.procedure? i = some (.step a next) := by
  unfold act? at h
  split at h
  · rename_i a' next hp
    cases h
    exact ⟨next, hp⟩
  all_goals cases h

/-- The stages that callers are at before their first act. -/
def firstStages (callers : List FileCaller) (i : Nat) : FileStage :=
  match callers[i]? with
  | some caller => .first caller.task
  | none => .gone

theorem after_append (c : Contention) (turns turns' : List FileTurn) :
    c.after (turns ++ turns') = (c.after turns).after turns' :=
  List.foldl_append

theorem after_concat (c : Contention) (turns : List FileTurn) (t : FileTurn) :
    c.after (turns ++ [t]) = (c.after turns).turn t :=
  c.after_append turns [t]

theorem renamers_append (c : Contention) (turns turns' : List FileTurn) :
    c.renamers (turns ++ turns') = c.renamers turns ++ (c.after turns).renamers turns' := by
  induction turns generalizing c with
  | nil => rfl
  | cons t turns ih =>
    rw [List.cons_append, renamers, renamers, ih, List.append_assoc]
    rfl

theorem renamers_concat (c : Contention) (turns : List FileTurn) (t : FileTurn) :
    c.renamers (turns ++ [t]) = c.renamers turns ++ ((c.after turns).renamer? t).toList := by
  rw [renamers_append, renamers, renamers, List.append_nil]

theorem lt_of_procedure? {i : Nat} {p : FileProcedure (Except SettingsError Settings)}
    (h : c.procedure? i = some p) : i < c.procedures.length := by
  by_contra hge
  unfold procedure? at h
  rw [List.getElem?_eq_none (Nat.le_of_not_lt hge)] at h
  cases h

/-- A turn by which a caller does its next act. -/
theorem turn_act {i : Nat} {a : FileAct}
    {next : a.Answer → FileProcedure (Except SettingsError Settings)}
    (hp : c.procedure? i = some (.step a next)) (hfree : c.waits i a = false) :
    c.turn (.act i) = { c with
      tree := (a.carryOut c.tree).2
      procedures := c.procedures.set i (some (next (a.carryOut c.tree).1))
      holder := c.holderAfter i a } := by
  simp only [turn, hp, hfree, Bool.false_eq_true, if_false]

theorem turn_drop {i : Nat} {a : FileAct} (h : c.act? i = some a) :
    c.turn (.drop i) =
      { c with procedures := c.procedures.set i none, holder := c.holderWithout i } := by
  obtain ⟨next, hp⟩ := exists_step_of_act? h
  simp only [turn, hp]

/-- A caller without an act, or one that waits, leaves everything at its turn. -/
theorem turn_idle {i : Nat} (h : ∀ a, c.act? i = some a → c.waits i a = true) :
    c.turn (.act i) = c := by
  unfold turn
  dsimp only
  split
  · rename_i a next hp
    have ha : c.act? i = some a := by
      unfold act?
      rw [hp]
    rw [h a ha]
    rfl
  all_goals rfl

theorem turn_drop_idle {i : Nat} (h : c.act? i = none) : c.turn (.drop i) = c := by
  unfold turn
  dsimp only
  split
  · rename_i a next hp
    unfold act? at h
    rw [hp] at h
    cases h
  all_goals rfl

theorem waits_eq_false {i : Nat} {a : FileAct} (h : a ≠ .acquire) : c.waits i a = false := by
  unfold waits
  split
  · exact absurd rfl h
  · rfl

theorem renamer?_idle {i : Nat} (h : ∀ a, c.act? i = some a → c.waits i a = true) :
    c.renamer? (.act i) = none := by
  unfold renamer?
  dsimp only
  split
  · rename_i source target ha
    have := h _ ha
    rw [waits_eq_false (by simp)] at this
    cases this
  · rfl

theorem procedure?_set (c : Contention) (i : Nat)
    (p : Option (FileProcedure (Except SettingsError Settings))) (hlt : i < c.procedures.length)
    (j : Nat) : (c.procedures.set i p)[j]?.join = if j = i then p else c.procedure? j := by
  unfold procedure?
  by_cases h : j = i
  · subst h
    rw [List.getElem?_set_self hlt, if_pos rfl]
    rfl
  · rw [List.getElem?_set_ne (Ne.symm h), if_neg h]

/-- A turn takes its caller to the next stage. -/
theorem IsAt.act (h : IsAt path c stages) {i : Nat} {a : FileAct} (ha : c.act? i = some a)
    (hfree : c.waits i a = false) :
    IsAt path (c.turn (.act i))
      (Function.update stages i ((stages i).next path a (a.carryOut c.tree).1)) := by
  obtain ⟨next, hp⟩ := exists_step_of_act? ha
  have hi := h i
  rw [hp] at hi
  intro j
  rw [turn_act hp hfree]
  unfold procedure?
  dsimp only
  rw [c.procedure?_set i _ (lt_of_procedure? hp) j]
  by_cases hji : j = i
  · subst hji
    rw [if_pos rfl, Function.update_self]
    exact hi.2 _
  · rw [if_neg hji, Function.update_of_ne hji]
    exact h j

theorem IsAt.drop (h : IsAt path c stages) {i : Nat} {a : FileAct} (ha : c.act? i = some a) :
    IsAt path (c.turn (.drop i)) (Function.update stages i .gone) := by
  obtain ⟨next, hp⟩ := exists_step_of_act? ha
  intro j
  rw [turn_drop ha]
  unfold procedure?
  dsimp only
  rw [c.procedure?_set i _ (lt_of_procedure? hp) j]
  by_cases hji : j = i
  · subst hji
    rw [if_pos rfl, Function.update_self]
  · rw [if_neg hji, Function.update_of_ne hji]
    exact h j

/-! ## Runs -/

/-- What holds of the stages that callers are at, and is kept by every act and by every
caller that is dropped, holds after all turns. -/
theorem exists_stages {c₀ : Contention} {stages₀ : Nat → FileStage}
    {I : List FileTurn → (Nat → FileStage) → Prop} (hat : IsAt path c₀ stages₀)
    (hfirst : I [] stages₀)
    (hidle : ∀ {turns stages t}, (c₀.after turns).turn t = c₀.after turns →
      (c₀.after turns).renamer? t = none → I turns stages → I (turns ++ [t]) stages)
    (hact : ∀ {turns stages i a}, IsAt path (c₀.after turns) stages →
      (c₀.after turns).act? i = some a → (c₀.after turns).waits i a = false → I turns stages →
      I (turns ++ [.act i]) (Function.update stages i
        ((stages i).next path a (a.carryOut (c₀.after turns).tree).1)))
    (hdrop : ∀ {turns stages i a}, (c₀.after turns).act? i = some a → I turns stages →
      I (turns ++ [.drop i]) (Function.update stages i .gone))
    (turns : List FileTurn) : ∃ stages, IsAt path (c₀.after turns) stages ∧ I turns stages := by
  induction turns using List.reverseRecOn with
  | nil => exact ⟨stages₀, hat, hfirst⟩
  | append_singleton turns t ih =>
    obtain ⟨stages, hat, hI⟩ := ih
    rw [after_concat]
    cases t with
    | act i =>
      by_cases hwaits : ∀ a, (c₀.after turns).act? i = some a → (c₀.after turns).waits i a = true
      · rw [turn_idle hwaits]
        exact ⟨stages, hat, hidle (turn_idle hwaits) (renamer?_idle hwaits) hI⟩
      · push Not at hwaits
        obtain ⟨a, ha, hfree⟩ := hwaits
        have hfree : (c₀.after turns).waits i a = false := by simpa using hfree
        exact ⟨_, hat.act ha hfree, hact hat ha hfree hI⟩
    | drop i =>
      cases ha : (c₀.after turns).act? i with
      | none =>
        rw [turn_drop_idle ha]
        exact ⟨stages, hat, hidle (turn_drop_idle ha) rfl hI⟩
      | some a => exact ⟨_, hat.drop ha, hdrop ha hI⟩

end Contention
end ScopedSettings
