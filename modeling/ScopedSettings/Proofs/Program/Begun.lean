/-
Programs on a machine whose units always start.

Where starting a unit always comes to its end, no unit in the report of a program,
however deep in scopes, units and lanes, is left unbegun (`Steps.ends_begun`): it
comes out as its body did. A body all of whose own operations succeed comes to its
end, and its unit comes out as it was to end (`Steps.ends_unstopped`).
-/
import ScopedSettings.Program
import ScopedSettings.Proofs.Strand.Ends

namespace ScopedSettings

open Strand (Ends)

variable {ω ν ρ σ τ : Type}

theorem UnitOutcome.of_ne_unbegun (stopped : Option String) (ending : Ending ν) :
    UnitOutcome.of stopped ending ≠ .unbegun := by
  cases stopped with
  | some cause => simp [of]
  | none => cases ending <;> simp [of]

/-- Has every unit in a report begun? -/
inductive Report.Begun : Report ρ ν τ → Prop
  | op (r : ρ) : Begun (.op r)
  | scope {trace : Trace ρ ν τ} (h : ∀ e ∈ trace, Begun e.1) : Begun (.scope trace)
  | unit {trace : Trace ρ ν τ} {outcome : UnitOutcome ν} (h : ∀ e ∈ trace, Begun e.1)
    (houtcome : outcome ≠ .unbegun) : Begun (.unit trace outcome)
  | join {units : List (Trace ρ ν τ × UnitOutcome ν)} (h : ∀ u ∈ units, ∀ e ∈ u.1, Begun e.1)
    (houtcomes : ∀ u ∈ units, u.2 ≠ .unbegun) : Begun (.join units)

/-- Are the operations among the steps, those in the blocks aside, all of a kind? -/
def Steps.OpsAre (kind : ω → Prop) : Steps ω ν → Prop
  | .nil => True
  | .cons (.op o) rest => kind o ∧ rest.OpsAre kind
  | .cons _ rest => rest.OpsAre kind

/-- Does a machine keep an invariant, and start every unit it is asked to? -/
structure Machine.Starts (I : σ → Prop) (m : Machine ω ρ σ τ) : Prop where
  perform (o : ω) : Ends I (fun _ => True) (m.perform o)
  enter (w : WorkerId) (s : σ) (h : I s) : I (m.enter w s)
  leave (s : σ) (h : I s) : I (m.leave s)
  start (w : WorkerId) : Ends I (fun begun => begun = true) (m.start w)
  finish (w : WorkerId) : Ends I (fun _ => True) (m.finish w)

namespace Machine.Starts

variable {I : σ → Prop} {m : Machine ω ρ σ τ}

theorem scope (h : m.Starts I) (w : WorkerId) {P : α → Prop} {body : Strand σ α}
    (hbody : Ends I P body) : Ends I P (m.scope w body) :=
  hbody.within (h.enter w) h.leave

/-- A unit comes out as its body does, whatever happens meanwhile. -/
theorem unit (h : m.Starts I) (w : WorkerId) {P : Trace ρ ν τ × Option String → Prop}
    {body : Strand σ (Trace ρ ν τ × Option String)} (hbody : Ends I P body) (ending : Ending ν) :
    Ends I (fun done => ∃ stopped, P (done.1, stopped) ∧ done.2 = .of stopped ending)
      (m.unit w body ending) := by
  refine (h.start w).bind fun begun hbegun => ?_
  subst hbegun
  refine (h.scope w hbody).bind fun done hdone => (h.finish w).bind fun _ _ => ?_
  exact .done ⟨done.2, hdone, rfl⟩

end Machine.Starts

mutual

theorem Step.ends_begun {I : σ → Prop} {m : Machine ω ρ σ τ} (h : m.Starts I) :
    (step : Step ω ν) → Ends I Report.Begun (step.perform m)
  | .op o => by
    simp only [Step.perform]
    exact (h.perform o).map fun r _ => .op r
  | .scope w body => by
    simp only [Step.perform]
    exact (h.scope w (Steps.ends_begun h false body)).map fun _ hdone => .scope hdone
  | .unit w body tries ending => by
    simp only [Step.perform]
    refine (h.unit w (Steps.ends_begun h tries body) ending).map ?_
    rintro ⟨trace, outcome⟩ ⟨stopped, htrace, rfl⟩
    exact .unit htrace (UnitOutcome.of_ne_unbegun stopped ending)
  | .join lanes => by
    simp only [Step.perform]
    refine (Ends.all (Lanes.ends_begun h lanes)).map fun _ hdone => ?_
    exact .join (fun u hu => (hdone u hu).1) fun u hu => (hdone u hu).2

/-- No unit of a program is left unbegun. -/
theorem Steps.ends_begun {I : σ → Prop} {m : Machine ω ρ σ τ} (h : m.Starts I) (tries : Bool) :
    (steps : Steps ω ν) → Ends I (fun done => ∀ e ∈ done.1, e.1.Begun) (steps.perform m tries)
  | .nil => by
    simp only [Steps.perform]
    exact .done fun _ he => (List.not_mem_nil he).elim
  | .cons first rest => by
    simp only [Steps.perform]
    refine (Step.ends_begun h first).bind fun report hreport => ?_
    refine (Ends.look (P := fun _ => True) fun _ _ => trivial).bind fun seen _ => ?_
    split
    · exact .done (List.forall_mem_singleton.mpr hreport)
    · refine .pause ?_
      refine (Steps.ends_begun h tries rest).bind fun done hdone => ?_
      exact .done (List.forall_mem_cons.mpr ⟨hreport, hdone⟩)

theorem Lanes.ends_begun {I : σ → Prop} {m : Machine ω ρ σ τ} (h : m.Starts I) :
    (lanes : Lanes ω ν) → ∀ p ∈ lanes.perform m,
      Ends I (fun done => (∀ e ∈ done.1, e.1.Begun) ∧ done.2 ≠ .unbegun) p
  | .nil => by
    simp only [Lanes.perform]
    exact fun _ hp => (List.not_mem_nil hp).elim
  | .cons w body tries ending rest => by
    simp only [Lanes.perform]
    refine List.forall_mem_cons.mpr ⟨?_, Lanes.ends_begun h rest⟩
    refine (h.unit w (Steps.ends_begun h tries body) ending).imp ?_
    rintro ⟨trace, outcome⟩ ⟨stopped, htrace, rfl⟩
    exact ⟨htrace, UnitOutcome.of_ne_unbegun stopped ending⟩

end

/-- A step that is a block does not fail, and one that is an operation only if this does. -/
theorem Step.ends_sound {I : σ → Prop} {m : Machine ω ρ σ τ} (h : m.Starts I)
    {step : Step ω ν}
    (hop : ∀ o, step = .op o → Ends I (fun r => m.failure? r = none) (m.perform o)) :
    Ends I (fun report => report.failure? m = none) (step.perform m) := by
  cases step with
  | op o =>
    simp only [Step.perform]
    exact (hop o rfl).map fun _ hr => hr
  | scope w body =>
    simp only [Step.perform]
    exact (h.scope w (Steps.ends_begun h false body)).map fun _ _ => rfl
  | unit w body tries ending =>
    simp only [Step.perform]
    exact (h.unit w (Steps.ends_begun h tries body) ending).map fun _ _ => rfl
  | join lanes =>
    simp only [Step.perform]
    exact (Ends.all (Lanes.ends_begun h lanes)).map fun _ _ => rfl

theorem Steps.OpsAre.of_cons {kind : ω → Prop} {first : Step ω ν} {rest : Steps ω ν}
    (h : (Steps.cons first rest).OpsAre kind) :
    (∀ o, first = .op o → kind o) ∧ rest.OpsAre kind := by
  cases first with
  | op o =>
    refine ⟨?_, h.2⟩
    rintro o' ho
    cases ho
    exact h.1
  | scope w body | unit w body tries ending | join lanes =>
    refine ⟨fun _ ho => ?_, h⟩
    cases ho

/-- A body whose own operations all succeed comes to its end. -/
theorem Steps.ends_unstopped {I : σ → Prop} {m : Machine ω ρ σ τ} (h : m.Starts I)
    {kind : ω → Prop}
    (hkind : ∀ o, kind o → Ends I (fun r => m.failure? r = none) (m.perform o)) (tries : Bool) :
    (steps : Steps ω ν) → steps.OpsAre kind →
      Ends I (fun done => done.2 = none) (steps.perform m tries)
  | .nil, _ => by
    simp only [Steps.perform]
    exact .done rfl
  | .cons first rest, hsteps => by
    obtain ⟨hop, hrest⟩ := hsteps.of_cons
    simp only [Steps.perform]
    refine (Step.ends_sound h fun o ho => hkind o (hop o ho)).bind fun report hreport => ?_
    refine (Ends.look (P := fun _ => True) fun _ _ => trivial).bind fun seen _ => ?_
    rw [hreport, ite_self]
    refine .pause ?_
    exact (Steps.ends_unstopped h hkind tries rest hrest).bind fun _ hdone => .done hdone

end ScopedSettings
