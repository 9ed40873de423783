/-
Programs on two machines that do the same at the same time.

What a program does is built from what its machine does, so machines in step
(`Machine.Related`) carry any program out in step: scopes, units however they
end, and lanes side by side (`Steps.related`). The traces of the two runs are
then equal and the states they leave are related (`Steps.alone_related`).
-/
import ScopedSettings.Program
import ScopedSettings.Proofs.Strand.Related

namespace ScopedSettings

variable {ω ν ρ σ τ ε : Type}

/-- Two machines whose operations, scopes and units are in step, and which show the
same of related states. -/
structure Machine.Related (R : σ → τ → Prop) (m : Machine ω ρ σ ε) (m' : Machine ω ρ τ ε) :
    Prop where
  perform : ∀ o, Strand.Related R (m.perform o) (m'.perform o)
  failure? : m.failure? = m'.failure?
  observe : ∀ s t, R s t → m.observe s = m'.observe t
  enter : ∀ w s t, R s t → R (m.enter w s) (m'.enter w t)
  leave : ∀ s t, R s t → R (m.leave s) (m'.leave t)
  start : ∀ w, Strand.Related R (m.start w) (m'.start w)
  finish : ∀ w, Strand.Related R (m.finish w) (m'.finish w)

namespace Machine.Related

variable {R : σ → τ → Prop} {m : Machine ω ρ σ ε} {m' : Machine ω ρ τ ε}

theorem scope (h : Machine.Related R m m') (w : WorkerId) {p : Strand σ α} {q : Strand τ α}
    (hp : Strand.Related R p q) : Strand.Related R (m.scope w p) (m'.scope w q) :=
  hp.within (h.enter w) h.leave

theorem unit (h : Machine.Related R m m') (w : WorkerId)
    {p : Strand σ (Trace ρ ν ε × Option String)} {q : Strand τ (Trace ρ ν ε × Option String)}
    (hp : Strand.Related R p q) (ending : Ending ν) :
    Strand.Related R (m.unit w p ending) (m'.unit w q ending) := by
  refine (h.start w).bind fun begun => ?_
  cases begun with
  | false => exact .done _
  | true => exact (h.scope w hp).bind fun _ => (h.finish w).bind fun _ => .done _

theorem report_failure? (h : Machine.Related R m m') (r : Report ρ ν ε) :
    r.failure? m = r.failure? m' := by
  cases r with
  | op r => exact congrFun h.failure? r
  | scope _ | unit _ _ | join _ => rfl

end Machine.Related

mutual

theorem Step.related {R : σ → τ → Prop} {m : Machine ω ρ σ ε} {m' : Machine ω ρ τ ε}
    (h : Machine.Related R m m') : (step : Step ω ν) →
    Strand.Related R (step.perform m) (step.perform m')
  | .op o => by
    simp only [Step.perform]
    exact (h.perform o).map _
  | .scope w body => by
    simp only [Step.perform]
    exact (h.scope w (Steps.related h false body)).map _
  | .unit w body tries ending => by
    simp only [Step.perform]
    exact (h.unit w (Steps.related h tries body) ending).map _
  | .join lanes => by
    simp only [Step.perform]
    exact (Strand.Related.all (Lanes.related h lanes)).map _

/-- A program is carried out in step by machines in step. -/
theorem Steps.related {R : σ → τ → Prop} {m : Machine ω ρ σ ε} {m' : Machine ω ρ τ ε}
    (h : Machine.Related R m m') (tries : Bool) : (steps : Steps ω ν) →
    Strand.Related R (steps.perform m tries) (steps.perform m' tries)
  | .nil => by
    simp only [Steps.perform]
    exact .done _
  | .cons first rest => by
    simp only [Steps.perform]
    refine (Step.related h first).bind fun report => ?_
    refine (Strand.Related.look h.observe).bind fun seen => ?_
    simp only [h.report_failure?]
    split
    · exact .done _
    · refine .pause ?_
      exact (Steps.related h tries rest).bind fun _ => .done _

theorem Lanes.related {R : σ → τ → Prop} {m : Machine ω ρ σ ε} {m' : Machine ω ρ τ ε}
    (h : Machine.Related R m m') : (lanes : Lanes ω ν) →
    List.Forall₂ (Strand.Related R) (lanes.perform m) (lanes.perform m')
  | .nil => by
    simp only [Lanes.perform]
    exact .nil
  | .cons w body tries ending rest => by
    simp only [Lanes.perform]
    exact .cons (h.unit w (Steps.related h tries body) ending) (Lanes.related h rest)

end

/-- On related states, machines in step give a program the same trace and leave
related states. -/
theorem Steps.alone_related {R : σ → τ → Prop} {m : Machine ω ρ σ ε} {m' : Machine ω ρ τ ε}
    (h : Machine.Related R m m') (steps : Steps ω ν) (tries : Bool) {s : σ} {t : τ} (hs : R s t) :
    ((steps.perform m tries).alone s).1 = ((steps.perform m' tries).alone t).1 ∧
      R ((steps.perform m tries).alone s).2 ((steps.perform m' tries).alone t).2 :=
  (Steps.related h tries steps).alone hs

end ScopedSettings
