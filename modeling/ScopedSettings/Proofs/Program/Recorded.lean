/-
A program on a system that goes step by step is a run of its steps.

Keeping the steps changes nothing else (`Stepwise.related_recording`), so a program leaves
the system as the steps that it makes do (`Stepwise.Runs.eq_after`), and what holds after
all lists of steps holds after every program.
-/
import ScopedSettings.Program.Stepwise
import ScopedSettings.Proofs.Program.Related

namespace ScopedSettings.Stepwise

variable {δ ρ σ : Type}

theorem after_concat (step : δ → σ → ρ × σ) (s : σ) (ds : List δ) (d : δ) :
    after step s (ds ++ [d]) = (step d (after step s ds)).2 := by
  simp [after]

/-- A system, and a recording one that is in the same state after the steps it has kept. -/
def Kept (step : δ → σ → ρ × σ) (s₀ s : σ) (t : σ × List δ) : Prop :=
  t.1 = s ∧ s = after step s₀ t.2

theorem Kept.concat {step : δ → σ → ρ × σ} {s₀ s : σ} {t : σ × List δ} (h : Kept step s₀ s t)
    (d : δ) : Kept step s₀ (step d s).2 (recording step d t).2 := by
  obtain ⟨rfl, hs⟩ := h
  refine ⟨rfl, ?_⟩
  rw [recording, after_concat, ← hs]

theorem act_related (step : δ → σ → ρ × σ) (s₀ : σ) (d : δ) :
    Strand.Related (Kept step s₀) (.act (step d)) (.act (recording step d)) := by
  refine .act fun s t h => ⟨?_, h.concat d⟩
  rw [← h.1]
  rfl

theorem related_recording (p : Stepwise δ ρ) (step : δ → σ → ρ × σ) (s₀ : σ) :
    Machine.Related (Kept step s₀) (p.machine step) (p.machine (recording step)) where
  perform := act_related step s₀
  failure? := rfl
  observe _ _ _ := rfl
  enter w _ _ h := h.concat (p.enter w)
  leave _ _ h := h.concat p.leave
  start w := (act_related step s₀ (p.start w)).map p.begun
  finish w := (act_related step s₀ (p.finish w)).map fun _ => ()

/-- A run leaves the system as its steps do. -/
theorem Runs.eq_after {p : Stepwise δ ρ} {step : δ → σ → ρ × σ} {s₀ s : σ} {ds : List δ}
    (h : Runs p step s₀ ds s) : s = after step s₀ ds := by
  cases h with
  | steps ds => rfl
  | program steps tries =>
    have h := Steps.alone_related (related_recording p step s₀) steps tries
      (s := s₀) (t := (s₀, [])) ⟨rfl, rfl⟩
    exact h.2.2

end ScopedSettings.Stepwise
