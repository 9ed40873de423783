/-
Programs: operations in sequence, in scopes, in units of work, and in lanes
that run side by side.

A program is written over any operations; what these do is given by a
machine. Inside a scope or a unit its worker is the current one, and leaving
it in any way restores the worker around it. A body gives its turn away after
each of its steps, so lanes take turns operation by operation, however deep in
scopes and units these are; the worker of a lane is current only while it is
that lane's turn. A unit starts at once with the first step of its body, and
ends at the turn after the last.
-/
import ScopedSettings.Strand
import ScopedSettings.Worker

namespace ScopedSettings

/-- How the body of a unit of work ends. -/
inductive Ending (ν : Type)
  | ok (value : ν)
  | err (cause : Option String)
  | panic
  | cancel

mutual

/-- A step of a program. -/
inductive Step (ω ν : Type)
  | op (o : ω)
  /-- A body with a worker as the current one. -/
  | scope (w : WorkerId) (body : Steps ω ν)
  /-- A unit of work. A body that tries ends at the first operation that fails. -/
  | unit (w : WorkerId) (body : Steps ω ν) (tries : Bool) (ending : Ending ν)
  /-- Units of work side by side. -/
  | join (lanes : Lanes ω ν)

/-- Steps one after another. -/
inductive Steps (ω ν : Type)
  | nil
  | cons (first : Step ω ν) (rest : Steps ω ν)

/-- Units of work side by side. -/
inductive Lanes (ω ν : Type)
  | nil
  | cons (w : WorkerId) (body : Steps ω ν) (tries : Bool) (ending : Ending ν)
      (rest : Lanes ω ν)

end

def Steps.ofList : List (Step ω ν) → Steps ω ν
  | [] => .nil
  | s :: rest => .cons s (.ofList rest)

/-- How a unit of work came out. -/
inductive UnitOutcome (ν : Type)
  | ok (value : ν)
  | err (cause : String)
  | panicked
  | cancelled
  /-- The start of the unit was never answered. -/
  | unbegun

def unnamedCause : String := "failed"

/-- The outcome of a body that stopped at a failure or came to its end. -/
def UnitOutcome.of (stopped : Option String) (ending : Ending ν) : UnitOutcome ν :=
  match stopped, ending with
  | some cause, _ => .err cause
  | none, .ok value => .ok value
  | none, .err cause => .err (cause.getD unnamedCause)
  | none, .panic => .panicked
  | none, .cancel => .cancelled

/-- What a step came to: its results, each with what was observed right after it. -/
inductive Report (ρ ν τ : Type)
  | op (r : ρ)
  | scope (trace : List (Report ρ ν τ × τ))
  | unit (trace : List (Report ρ ν τ × τ)) (outcome : UnitOutcome ν)
  | join (units : List (List (Report ρ ν τ × τ) × UnitOutcome ν))

abbrev Trace (ρ ν τ : Type) := List (Report ρ ν τ × τ)

/-- What operations, scopes and units do to a state. -/
structure Machine (ω ρ σ τ : Type) where
  perform : ω → Strand σ ρ
  /-- The words of a result that is a failure. -/
  failure? : ρ → Option String
  /-- What is seen of a state after a step. -/
  observe : σ → τ
  enter : WorkerId → σ → σ
  leave : σ → σ
  /-- Starts a unit, and says whether that came to its end. -/
  start : WorkerId → Strand σ Bool
  finish : WorkerId → Strand σ Unit

/-- The words of a step's report that is a failure; only operations fail. -/
def Report.failure? (m : Machine ω ρ σ τ) : Report ρ ν τ → Option String
  | .op r => m.failure? r
  | _ => none

namespace Machine

def scope (m : Machine ω ρ σ τ) (w : WorkerId) (body : Strand σ α) : Strand σ α :=
  body.within (m.enter w) m.leave

/-- A body, which gives its trace and the failure it stopped at, as a unit of work. -/
def unit (m : Machine ω ρ σ τ) (w : WorkerId) (body : Strand σ (Trace ρ ν τ × Option String))
    (ending : Ending ν) : Strand σ (Trace ρ ν τ × UnitOutcome ν) := do
  if ← m.start w then
    let (trace, stopped) ← m.scope w body
    m.finish w
    return (trace, .of stopped ending)
  else return ([], .unbegun)

end Machine

mutual

/-- A step carried out. However a body ends, its scope is left and its unit finished. -/
def Step.perform (m : Machine ω ρ σ τ) : Step ω ν → Strand σ (Report ρ ν τ)
  | .op o => Report.op <$> m.perform o
  | .scope w body => (fun done => .scope done.1) <$> m.scope w (body.perform m false)
  | .unit w body tries ending =>
    (fun done => .unit done.1 done.2) <$> m.unit w (body.perform m tries) ending
  | .join lanes => Report.join <$> Strand.all (lanes.perform m)

/-- Steps carried out one after another; if they are tried, the first failure is the
last step, and its words are given beside the trace. -/
def Steps.perform (m : Machine ω ρ σ τ) (tries : Bool) :
    Steps ω ν → Strand σ (Trace ρ ν τ × Option String)
  | .nil => return ([], none)
  | .cons first rest => do
    let report ← first.perform m
    let entry := (report, ← .look m.observe)
    match (if tries then report.failure? m else none) with
    | some cause => return ([entry], some cause)
    | none =>
      .yield
      let (entries, stopped) ← rest.perform m tries
      return (entry :: entries, stopped)

/-- Lanes carried out, each for itself. -/
def Lanes.perform (m : Machine ω ρ σ τ) :
    Lanes ω ν → List (Strand σ (Trace ρ ν τ × UnitOutcome ν))
  | .nil => []
  | .cons w body tries ending rest => m.unit w (body.perform m tries) ending :: rest.perform m

end

def Lanes.ofList : List (WorkerId × Steps ω ν × Bool × Ending ν) → Lanes ω ν
  | [] => .nil
  | (w, body, tries, ending) :: rest => .cons w body tries ending (.ofList rest)

end ScopedSettings
