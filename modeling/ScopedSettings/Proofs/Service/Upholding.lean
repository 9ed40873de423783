/-
Invariants of sessions.

All that an operation does but keep the books of open units is done by a few courses on the
session's service. So an invariant that these courses keep, whatever the patience, and that
does not care which units are open, is kept by every operation; and where the settings that
the courses come to are of a kind, so are those of the operations (`Session.Upholds.perform`).
-/
import ScopedSettings.Proofs.Strand.Ends
import ScopedSettings.Service.Session

namespace ScopedSettings.Session

open Strand (Ends)

variable {β : Type} [Backend β] {I : Session β → Prop}
  {P : Except SettingsError Settings → Prop}

/-- Is the answer that an operation comes to of a kind, if it comes to one? -/
def Answers (P : Except SettingsError Settings → Prop) (outcome : Option Outcome) : Prop :=
  ∀ answer, outcome = some (.settings answer) → P answer

/-- Is an invariant kept by the courses of the operations, which come to answers of a kind,
and by the books of open units? -/
structure Upholds (I : Session β → Prop) (P : Except SettingsError Settings → Prop) : Prop where
  get (w : WorkerId) (bypass : Bool) (patience : Option Duration) :
    Ends I (fun x => ∀ y, x = some y → P y.1) (run (Course.get w bypass) patience)
  fetch (patience : Option Duration) :
    Ends I (fun x => ∀ y, x = some y → P y.1) (run Course.fetch patience)
  write (w : WorkerId) (u : Update) (now : Instant) (patience : Option Duration) :
    Ends I (fun x => ∀ y, x = some y → P y.1) (run (Course.write w u now) patience)
  start (w : WorkerId) (patience : Option Duration) :
    Ends I (fun _ => True) (run (Course.start w) patience)
  finish (w : WorkerId) (patience : Option Duration) :
    Ends I (fun _ => True) (run (Course.finish w) patience)
  closeUnit {s : Session β} (h : I s) (name : String) : I (s.closeUnit name)
  openUnit {s : Session β} (h : I s) (name : String) (w : WorkerId) : I (s.openUnit name w)

theorem ends_answer {c : Course (Except SettingsError Settings)} {patience : Option Duration}
    (hc : Ends I (fun x => ∀ y, x = some y → P y.1) (run c patience)) :
    Ends I (Answers P) (runFor c patience .settings) := by
  refine hc.bind fun x hx => .done fun answer hanswer => ?_
  obtain ⟨y, hy, hsettings⟩ := Option.map_eq_some_iff.mp hanswer
  cases hsettings
  exact hx y hy

theorem ends_answerAs {c : WorkerId → Course (Except SettingsError Settings)}
    {patience : Option Duration}
    (hc : ∀ w, Ends I (fun x => ∀ y, x = some y → P y.1) (run (c w) patience))
    (w : Option WorkerId) : Ends I (Answers P) (runAs w c patience .settings) :=
  (Ends.look (P := fun _ => True) fun _ _ => trivial).bind fun v _ =>
    ends_answer (hc (w.getD v))

theorem ends_silent {c : Course α} {patience : Option Duration}
    (hc : Ends I (fun _ => True) (run c patience)) {outcome : Outcome}
    (h : ∀ answer, outcome ≠ .settings answer) :
    Ends I (Answers P) (runFor c patience fun _ => outcome) := by
  refine hc.bind fun x _ => .done fun answer hanswer => ?_
  obtain ⟨_, -, hsettings⟩ := Option.map_eq_some_iff.mp hanswer
  exact absurd hsettings (h answer)

namespace Upholds

variable (h : Upholds I P)
include h

theorem ends_endUnit (name : String) (patience : Option Duration) :
    Ends I (Answers P) (endUnit name patience) := by
  refine (Ends.act (P := fun _ => True) fun s hs => ⟨trivial, h.closeUnit hs name⟩).bind ?_
  intro found _
  cases found with
  | none => exact .done fun _ => nofun
  | some w => exact ends_silent (h.finish w patience) fun _ => Outcome.noConfusion

theorem ends_beginUnit (w : WorkerId) (name : String) (patience : Option Duration) :
    Ends I (Answers P) (beginUnit w name patience) := by
  refine (h.start w patience).bind fun begun _ => ?_
  cases begun with
  | none => exact .done fun _ => nofun
  | some begun =>
    obtain ⟨-, left⟩ := begun
    refine (Ends.act (P := fun _ => True) fun s hs => ⟨trivial, h.openUnit hs name w⟩).bind ?_
    intro found _
    cases found with
    | none => exact .done fun _ => nofun
    | some v => exact ends_silent (h.finish v left) fun _ => Outcome.noConfusion

/-- Every operation keeps the invariant, and its answer is of the kind. -/
theorem perform (patience : Option Duration) (o : Operation) :
    Ends I (Answers P) (perform patience o) := by
  cases o with
  | get w bypass => exact ends_answerAs (fun w => h.get w bypass patience) w
  | fetch => exact ends_answer (h.fetch patience)
  | write w u now => exact ends_answerAs (fun w => h.write w u now patience) w
  | start w => exact ends_silent (h.start w patience) fun _ => Outcome.noConfusion
  | succeed w | fail w => exact ends_silent (h.finish w patience) fun _ => Outcome.noConfusion
  | begin w name => exact h.ends_beginUnit w name patience
  | succeedUnit name | failUnit name | dropUnit name => exact h.ends_endUnit name patience

end Upholds
end ScopedSettings.Session
