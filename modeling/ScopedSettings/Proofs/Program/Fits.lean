/-
What the operations of a program come to, wherever in the program they stand.

A report has the shape of the program it is of, as far as that was carried out, so it
can be said of each operation what it came to (`Steps.Fits`), also by the blocks around
it. If every operation of a kind keeps an invariant of the state and comes to what it
may, then so does each of a program of such operations (`Steps.ends_fits`), whatever the
lanes do to each other in between.
-/
import ScopedSettings.Program
import ScopedSettings.Proofs.Strand.Ends

namespace ScopedSettings

open Strand (Ends)

variable {ω ν ρ σ τ : Type}

mutual

/-- Is a report one of a step whose operations come to what they may in their blocks? -/
def Step.Fits (P : List WorkerId → ω → ρ → Prop) (ws : List WorkerId) :
    Step ω ν → Report ρ ν τ → Prop
  | .op o, .op r => P ws o r
  | .scope w body, .scope trace => body.Fits P (w :: ws) trace
  | .unit w body _ _, .unit trace _ => body.Fits P (w :: ws) trace
  | .join lanes, .join units => lanes.Fits P ws units
  | _, _ => False

/-- Is a trace one of the first of the steps? -/
def Steps.Fits (P : List WorkerId → ω → ρ → Prop) (ws : List WorkerId) :
    Steps ω ν → Trace ρ ν τ → Prop
  | _, [] => True
  | .cons first rest, e :: trace => first.Fits P ws e.1 ∧ rest.Fits P ws trace
  | .nil, _ :: _ => False

def Lanes.Fits (P : List WorkerId → ω → ρ → Prop) (ws : List WorkerId) :
    Lanes ω ν → List (Trace ρ ν τ × UnitOutcome ν) → Prop
  | .nil, [] => True
  | .cons w body _ _ rest, u :: units => body.Fits P (w :: ws) u.1 ∧ rest.Fits P ws units
  | _, _ => False

end

theorem Steps.fits_nil (P : List WorkerId → ω → ρ → Prop) (ws : List WorkerId)
    (steps : Steps ω ν) : steps.Fits P ws ([] : Trace ρ ν τ) := by
  cases steps <;> simp [Steps.Fits]

mutual

/-- Is each operation of a step, in its blocks too, of a kind? -/
def Step.Every (kind : ω → Prop) : Step ω ν → Prop
  | .op o => kind o
  | .scope _ body => body.Every kind
  | .unit _ body _ _ => body.Every kind
  | .join lanes => lanes.Every kind

def Steps.Every (kind : ω → Prop) : Steps ω ν → Prop
  | .nil => True
  | .cons first rest => first.Every kind ∧ rest.Every kind

def Lanes.Every (kind : ω → Prop) : Lanes ω ν → Prop
  | .nil => True
  | .cons _ body _ _ rest => body.Every kind ∧ rest.Every kind

end

/-- Does a machine keep an invariant, and do its operations of a kind come to what they may? -/
structure Machine.Keeps (m : Machine ω ρ σ τ) (I : σ → Prop) (kind : ω → Prop)
    (P : ω → ρ → Prop) : Prop where
  perform (o : ω) (h : kind o) : Ends I (P o) (m.perform o)
  enter (w : WorkerId) (s : σ) (h : I s) : I (m.enter w s)
  leave (s : σ) (h : I s) : I (m.leave s)
  start (w : WorkerId) : Ends I (fun _ => True) (m.start w)
  finish (w : WorkerId) : Ends I (fun _ => True) (m.finish w)

namespace Machine.Keeps

variable {m : Machine ω ρ σ τ} {I : σ → Prop} {kind : ω → Prop} {P : ω → ρ → Prop}

theorem scope (h : m.Keeps I kind P) (w : WorkerId) {Q : α → Prop} {body : Strand σ α}
    (hbody : Ends I Q body) : Ends I Q (m.scope w body) :=
  hbody.within (h.enter w) h.leave

theorem unit (h : m.Keeps I kind P) (w : WorkerId) {Q : Trace ρ ν τ → Prop} (hempty : Q [])
    {body : Strand σ (Trace ρ ν τ × Option String)} (hbody : Ends I (fun done => Q done.1) body)
    (ending : Ending ν) : Ends I (fun done => Q done.1) (m.unit w body ending) := by
  refine (h.start w).bind fun begun _ => ?_
  cases begun with
  | false => exact .done hempty
  | true =>
    refine (h.scope w hbody).bind fun done hdone => ?_
    exact (h.finish w).bind fun _ _ => .done hdone

end Machine.Keeps

mutual

theorem Step.ends_fits {m : Machine ω ρ σ τ} {I : σ → Prop} {kind : ω → Prop}
    {P : ω → ρ → Prop} (h : m.Keeps I kind P) : (step : Step ω ν) → step.Every kind →
      (ws : List WorkerId) → Ends I (step.Fits (fun _ => P) ws) (step.perform m)
  | .op o, hstep, ws => by
    simp only [Step.perform]
    exact (h.perform o hstep).map fun _ hr => hr
  | .scope w body, hstep, ws => by
    simp only [Step.perform]
    exact (h.scope w (Steps.ends_fits h false body hstep (w :: ws))).map fun _ hdone => hdone
  | .unit w body tries ending, hstep, ws => by
    simp only [Step.perform]
    refine (h.unit w (Steps.fits_nil _ (w :: ws) body)
      (Steps.ends_fits h tries body hstep (w :: ws)) ending).map ?_
    exact fun _ hdone => hdone
  | .join lanes, hstep, ws => by
    simp only [Step.perform]
    exact (Lanes.ends_fits h lanes hstep ws).map fun _ hdone => hdone

/-- In a program of operations of the kind each comes to what it may. -/
theorem Steps.ends_fits {m : Machine ω ρ σ τ} {I : σ → Prop} {kind : ω → Prop}
    {P : ω → ρ → Prop} (h : m.Keeps I kind P) (tries : Bool) : (steps : Steps ω ν) →
      steps.Every kind → (ws : List WorkerId) →
        Ends I (fun done => steps.Fits (fun _ => P) ws done.1) (steps.perform m tries)
  | .nil, _, ws => by
    simp only [Steps.perform]
    exact .done (Steps.fits_nil _ ws .nil)
  | .cons first rest, hsteps, ws => by
    obtain ⟨hfirst, hrest⟩ := hsteps
    simp only [Steps.perform]
    refine (Step.ends_fits h first hfirst ws).bind fun report hreport => ?_
    refine (Ends.look (P := fun _ => True) fun _ _ => trivial).bind fun seen _ => ?_
    split
    · exact .done ⟨hreport, Steps.fits_nil _ ws rest⟩
    · refine .pause ?_
      refine (Steps.ends_fits h tries rest hrest ws).bind fun done hdone => ?_
      exact .done ⟨hreport, hdone⟩

theorem Lanes.ends_fits {m : Machine ω ρ σ τ} {I : σ → Prop} {kind : ω → Prop}
    {P : ω → ρ → Prop} (h : m.Keeps I kind P) : (lanes : Lanes ω ν) → lanes.Every kind →
      (ws : List WorkerId) → Ends I (lanes.Fits (fun _ => P) ws) (.all (lanes.perform m))
  | .nil, _, ws => by
    simp only [Lanes.perform]
    exact .done trivial
  | .cons w body tries ending rest, hlanes, ws => by
    obtain ⟨hbody, hrest⟩ := hlanes
    simp only [Lanes.perform]
    have hlane := h.unit w (Steps.fits_nil _ (w :: ws) body)
      (Steps.ends_fits h tries body hbody (w :: ws)) ending
    exact (hlane.both (Lanes.ends_fits h rest hrest ws)).bind fun _ hdone => .done hdone

end

end ScopedSettings
