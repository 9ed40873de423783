/-
Programs whose operations depend on the blocks around them.

Which blocks are around an operation, innermost first, can be read off the program: the
scopes and units it stands in, a lane being a unit (`Steps.explicit`). A
machine follows the text (`Machine.Lexical`) if a state in which blocks have been
entered is all an operation needs to know of them. Then it does not matter whether an
operation finds the blocks in the state or is told of them
(`Steps.agree`): each lane is back in its own blocks whenever it goes on, and the blocks
around a block are back when it ends, however it does.
-/
import ScopedSettings.Proofs.Program.Fits
import ScopedSettings.Proofs.Strand.Agree

namespace ScopedSettings

open Strand (Agree)

variable {ω ν ρ σ τ : Type}

mutual

/-- The program with each operation told of the blocks around it. -/
def Step.explicit (f : List WorkerId → ω → ω) (ws : List WorkerId) : Step ω ν → Step ω ν
  | .op o => .op (f ws o)
  | .scope w body => .scope w (body.explicit f (w :: ws))
  | .unit w body tries ending => .unit w (body.explicit f (w :: ws)) tries ending
  | .join lanes => .join (lanes.explicit f ws)

def Steps.explicit (f : List WorkerId → ω → ω) (ws : List WorkerId) : Steps ω ν → Steps ω ν
  | .nil => .nil
  | .cons first rest => .cons (first.explicit f ws) (rest.explicit f ws)

def Lanes.explicit (f : List WorkerId → ω → ω) (ws : List WorkerId) : Lanes ω ν → Lanes ω ν
  | .nil => .nil
  | .cons w body tries ending rest =>
    .cons w (body.explicit f (w :: ws)) tries ending (rest.explicit f ws)

end

/-- Does a machine keep track of the blocks that have been entered, and does it perform
an operation in them as one that is told of them? -/
structure Machine.Lexical (m : Machine ω ρ σ τ) (B : List WorkerId → σ → Prop)
    (f : List WorkerId → ω → ω) (P : List WorkerId → ω → ρ → Prop) : Prop where
  perform (ws : List WorkerId) (o : ω) (s : σ) (h : B ws s) :
    Agree (B ws) (P ws o) s (m.perform o) (m.perform (f ws o))
  enter (ws : List WorkerId) (w : WorkerId) (s : σ) (h : B ws s) : B (w :: ws) (m.enter w s)
  leave (ws : List WorkerId) (w : WorkerId) (s : σ) (h : B (w :: ws) s) : B ws (m.leave s)
  start (ws : List WorkerId) (w : WorkerId) (s : σ) (h : B ws s) :
    Agree (B ws) (fun _ => True) s (m.start w) (m.start w)
  finish (ws : List WorkerId) (w : WorkerId) (s : σ) (h : B ws s) :
    Agree (B ws) (fun _ => True) s (m.finish w) (m.finish w)

namespace Machine.Lexical

variable {m : Machine ω ρ σ τ} {B : List WorkerId → σ → Prop} {f : List WorkerId → ω → ω}
  {P : List WorkerId → ω → ρ → Prop} {ws : List WorkerId} {s : σ}

theorem scope (h : m.Lexical B f P) (w : WorkerId) {Q : α → Prop} {p q : Strand σ α}
    (hbody : ∀ t, B (w :: ws) t → Agree (B (w :: ws)) Q t p q) (hs : B ws s) :
    Agree (B ws) Q s (m.scope w p) (m.scope w q) :=
  (hbody _ (h.enter ws w s hs)).within (h.enter ws w) (h.leave ws w)

/-- A unit whose bodies agree, with a trace that may be empty, agrees. -/
theorem unit (h : m.Lexical B f P) (w : WorkerId) {Q : Trace ρ ν τ → Prop} (hempty : Q [])
    {p q : Strand σ (Trace ρ ν τ × Option String)}
    (hbody : ∀ t, B (w :: ws) t → Agree (B (w :: ws)) (fun done => Q done.1) t p q)
    (ending : Ending ν) (hs : B ws s) :
    Agree (B ws) (fun done => Q done.1) s (m.unit w p ending) (m.unit w q ending) := by
  refine (h.start ws w s hs).bind fun begun t _ ht => ?_
  cases begun with
  | false => exact .done ht hempty
  | true =>
    refine (h.scope w hbody ht).bind fun done u hdone hu => ?_
    exact (h.finish ws w u hu).bind fun _ v _ hv => .done hv hdone

end Machine.Lexical

mutual

theorem Step.agree {m : Machine ω ρ σ τ} {B : List WorkerId → σ → Prop}
    {f : List WorkerId → ω → ω} {P : List WorkerId → ω → ρ → Prop} (h : m.Lexical B f P) :
    (step : Step ω ν) → (ws : List WorkerId) → (s : σ) → B ws s →
      Agree (B ws) (step.Fits P ws) s (step.perform m) ((step.explicit f ws).perform m)
  | .op o, ws, s, hs => by
    simp only [Step.explicit, Step.perform]
    exact (h.perform ws o s hs).map fun r hr => hr
  | .scope w body, ws, s, hs => by
    simp only [Step.explicit, Step.perform]
    refine (h.scope w (fun t ht => Steps.agree h false body (w :: ws) t ht) hs).map ?_
    exact fun done hdone => hdone
  | .unit w body tries ending, ws, s, hs => by
    simp only [Step.explicit, Step.perform]
    refine (h.unit w (Steps.fits_nil P (w :: ws) body)
      (fun t ht => Steps.agree h tries body (w :: ws) t ht) ending hs).map ?_
    exact fun done hdone => hdone
  | .join lanes, ws, s, hs => by
    simp only [Step.explicit, Step.perform]
    exact (Lanes.agree h lanes ws s hs).map fun units hunits => hunits

/-- A program comes to the same when each operation is told of the blocks around it. -/
theorem Steps.agree {m : Machine ω ρ σ τ} {B : List WorkerId → σ → Prop}
    {f : List WorkerId → ω → ω} {P : List WorkerId → ω → ρ → Prop} (h : m.Lexical B f P)
    (tries : Bool) : (steps : Steps ω ν) → (ws : List WorkerId) → (s : σ) → B ws s →
      Agree (B ws) (fun done => steps.Fits P ws done.1) s (steps.perform m tries)
        ((steps.explicit f ws).perform m tries)
  | .nil, ws, s, hs => by
    simp only [Steps.explicit, Steps.perform]
    exact .done hs (Steps.fits_nil P ws .nil)
  | .cons first rest, ws, s, hs => by
    simp only [Steps.explicit, Steps.perform]
    refine (Step.agree h first ws s hs).bind fun report t hreport ht => ?_
    refine .read ?_
    dsimp only
    split
    · exact .done ht ⟨hreport, Steps.fits_nil P ws rest⟩
    · refine .pause ht fun t ht => ?_
      refine (Steps.agree h tries rest ws t ht).bind fun done u hdone hu => ?_
      exact .done hu ⟨hreport, hdone⟩

/-- Each lane is back in its own blocks when it goes on. -/
theorem Lanes.agree {m : Machine ω ρ σ τ} {B : List WorkerId → σ → Prop}
    {f : List WorkerId → ω → ω} {P : List WorkerId → ω → ρ → Prop} (h : m.Lexical B f P) :
    (lanes : Lanes ω ν) → (ws : List WorkerId) → (s : σ) → B ws s →
      Agree (B ws) (lanes.Fits P ws) s (.all (lanes.perform m))
        (.all ((lanes.explicit f ws).perform m))
  | .nil, ws, s, hs => by
    simp only [Lanes.explicit, Lanes.perform]
    exact .done hs trivial
  | .cons w body tries ending rest, ws, s, hs => by
    simp only [Lanes.explicit, Lanes.perform]
    have hlane := h.unit w (Steps.fits_nil P (w :: ws) body)
      (fun t ht => Steps.agree h tries body (w :: ws) t ht) ending hs
    refine (hlane.both fun t ht => Lanes.agree h rest ws t ht).bind ?_
    exact fun done t hdone ht => .done ht hdone

end

end ScopedSettings
