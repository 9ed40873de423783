/-
Programs on systems that go step by step.

Where each operation of a program, each scope entered or left, and each start and end of
a unit is one step of a system (`Stepwise`), the system gives a machine for programs, and
a program makes steps in a row. They are found by letting the system keep the steps it
makes (`Stepwise.recording`).
-/
import ScopedSettings.Program

namespace ScopedSettings

/-- How a program's parts are steps of a system; `δ` are the steps, `ρ` what they come to. -/
structure Stepwise (δ ρ : Type) where
  enter : WorkerId → δ
  leave : δ
  start : WorkerId → δ
  /-- Did a start come to its end? -/
  begun : ρ → Bool
  finish : WorkerId → δ
  failure? : ρ → Option String

namespace Stepwise

variable {δ ρ σ ν : Type}

/-- The machine of a system, each of whose steps takes one turn. -/
def machine (p : Stepwise δ ρ) (step : δ → σ → ρ × σ) : Machine δ ρ σ Unit where
  perform d := .act (step d)
  failure? := p.failure?
  observe _ := ()
  enter w s := (step (p.enter w) s).2
  leave s := (step p.leave s).2
  start w := p.begun <$> .act (step (p.start w))
  finish w := (fun _ => ()) <$> .act (step (p.finish w))

/-- A system that keeps the steps it makes. -/
def recording (step : δ → σ → ρ × σ) (d : δ) (t : σ × List δ) : ρ × σ × List δ :=
  ((step d t.1).1, (step d t.1).2, t.2 ++ [d])

/-- A system after steps in a row. -/
def after (step : δ → σ → ρ × σ) (s : σ) (ds : List δ) : σ :=
  ds.foldl (fun s d => (step d s).2) s

/-- The steps that a program makes. -/
def stepsOf (p : Stepwise δ ρ) (step : δ → σ → ρ × σ) (steps : Steps δ ν) (tries : Bool) (s : σ) :
    List δ :=
  ((steps.perform (p.machine (recording step)) tries).alone (s, [])).2.2

/-- The runs of a system, with their steps and the system afterwards: steps made one after
another, and programs whose lanes take turns step by step. -/
inductive Runs (p : Stepwise δ ρ) (step : δ → σ → ρ × σ) (s : σ) : List δ → σ → Prop
  | steps (ds : List δ) : Runs p step s ds (after step s ds)
  | program {ν : Type} (steps : Steps δ ν) (tries : Bool) :
    Runs p step s (p.stepsOf step steps tries s)
      ((steps.perform (p.machine step) tries).alone s).2

end Stepwise
end ScopedSettings
