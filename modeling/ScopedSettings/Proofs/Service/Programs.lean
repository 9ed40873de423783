/-
Programs of nested blocks and lanes are runs of moves.

The recorder makes the same moves as the undivided machine and keeps them, so
the two are in step when the recorder's session is the one its moves lead to
(`Kept`). Hence every run, of moves or of a program, leaves the session after
its moves (`Runs.eq_after`), and what is proved for all lists of moves holds
of every program.
-/
import ScopedSettings.Proofs.Program.Related
import ScopedSettings.Proofs.Service.Moves

namespace ScopedSettings.Session

variable {β ξ τ : Type} [Backend β]

theorem after_append (change : ξ → β → β) (s : Session β) (ms ms' : List (Move ξ)) :
    s.after change (ms ++ ms') = (s.after change ms).after change ms' :=
  List.foldl_append

theorem after_concat (change : ξ → β → β) (s : Session β) (ms : List (Move ξ)) (m : Move ξ) :
    s.after change (ms ++ [m]) = (s.after change ms).afterMove change m :=
  after_append change s ms [m]

/-! ## The recorder -/

/-- A session, and a recorder's state that is this session with the moves that led to it. -/
def Kept (change : ξ → β → β) (s₀ s : Session β) (t : Session β × List (Move ξ)) : Prop :=
  t.1 = s ∧ s = s₀.after change t.2

theorem Kept.concat {change : ξ → β → β} {s₀ s : Session β} {t : Session β × List (Move ξ)}
    (h : Kept change s₀ s t) (m : Move ξ) :
    Kept change s₀ (s.afterMove change m) (t.1.afterMove change m, t.2 ++ [m]) := by
  obtain ⟨rfl, hs⟩ := h
  refine ⟨rfl, ?_⟩
  rw [after_concat, ← hs]

theorem act_record_related (change : ξ → β → β) (s₀ : Session β) (m : Move ξ) :
    Strand.Related (Kept change s₀) (.act (move change m).alone) (record change m) := by
  refine .act fun s t h => ⟨?_, ?_⟩
  · rw [h.1]
  · exact h.concat m

/-- Starting a unit by itself is an operation whose outcome is not looked at. -/
theorem startUnit_alone (w : WorkerId) (s : Session β) :
    (startUnit w).alone s =
      (((perform none (.start w)).alone s).1.isSome, ((perform none (.start w)).alone s).2) := by
  rw [perform_start]
  unfold startUnit
  rw [← bind_pure_comp, Strand.bind_alone, run_alone, Service.perform_start]
  simp only [Strand.pure_eq, Strand.alone, Option.isSome_map]
  rfl

theorem finishUnit_alone (w : WorkerId) (s : Session β) :
    (finishUnit w).alone s = ((), s.finished w) := by
  unfold finishUnit
  rw [← bind_pure_comp, Strand.bind_alone, run_alone, Service.perform_finish]
  rfl

theorem machine_related_recorder (change : ξ → β → β) (observe : Session β → τ) (s₀ : Session β) :
    Machine.Related (Kept change s₀) (machine change observe).undivided
      (recorder change observe) where
  perform := act_record_related change s₀
  failure? := rfl
  observe _ _ h := congrArg observe h.1.symm
  enter w _ _ h := h.concat (.enter w)
  leave _ _ h := h.concat .leave
  start w := by
    have h := (act_record_related change s₀ (.use none (.start w))).map Option.isSome
    have hact : (machine change observe).undivided.start w =
        Option.isSome <$> .act (move change (.use none (.start w))).alone := by
      change Strand.act (startUnit w).alone = _
      rw [funext (startUnit_alone w)]
      rfl
    rw [hact]
    exact h
  finish w := by
    have h := (act_record_related change s₀ (.use none (.succeed w))).map fun _ => ()
    have hact : (machine change observe).undivided.finish w =
        (fun _ => ()) <$> .act (move change (.use none (.succeed w))).alone := by
      change Strand.act (finishUnit w).alone = _
      rw [funext (finishUnit_alone w)]
      change _ = (fun _ => ()) <$> Strand.act (perform none (.succeed w)).alone
      rw [funext (perform_succeed w none)]
      rfl
    rw [hact]
    exact h

/-- A run leaves the session after its moves. -/
theorem Runs.eq_after {change : ξ → β → β} {s₀ s : Session β} {ms : List (Move ξ)}
    (h : Runs change s₀ ms s) : s = s₀.after change ms := by
  cases h with
  | moves ms => rfl
  | program steps tries =>
    have h := Steps.alone_related (machine_related_recorder change (fun _ => ()) s₀) steps tries
      (s := s₀) (t := (s₀, [])) ⟨rfl, rfl⟩
    exact h.2.2

end ScopedSettings.Session
