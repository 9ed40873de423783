/-
Runs of which some moves can be left out.

Each move of a run is marked as one that stays or one that may be left out
(`Moves`). What is shown of such a pair of runs has one form: sessions stay
related when a move that stays is made in both, which comes to the same in both,
and when one that is left out is made in the first alone. Then the moves that
stay come to the same in the two runs, and the sessions are related at every
point (`Session.results_kept`).
-/
import ScopedSettings.Proofs.Service.Programs

namespace ScopedSettings

variable {β ξ : Type}

/-- Moves, and of each whether it stays when some are left out. -/
abbrev Moves (ξ : Type) := List (Move ξ × Bool)

namespace Moves

def all (ms : Moves ξ) : List (Move ξ) :=
  ms.map Prod.fst

/-- The moves that stay. -/
def kept (ms : Moves ξ) : List (Move ξ) :=
  (ms.filter Prod.snd).map Prod.fst

end Moves

namespace Session

variable [Backend β]

/-- What a move comes to; only operations come to anything. -/
def resultOf (change : ξ → β → β) (s : Session β) (m : Move ξ) : Option Outcome :=
  ((move change m).alone s).1

/-- What the moves of a run come to, in order. -/
def results (change : ξ → β → β) (s : Session β) : List (Move ξ) → List (Option Outcome)
  | [] => []
  | m :: ms => s.resultOf change m :: (s.afterMove change m).results change ms

/-- What the moves that stay come to in the run of all of them. -/
def resultsOfKept (change : ξ → β → β) (s : Session β) : Moves ξ → List (Option Outcome)
  | [] => []
  | (m, stays) :: ms =>
    let rest := (s.afterMove change m).resultsOfKept change ms
    if stays then s.resultOf change m :: rest else rest

/-- Is every move that is left out, where it comes in the run, one of a kind? -/
def LeavesOut (change : ξ → β → β) (kind : Session β → Move ξ → Prop) (s : Session β) :
    Moves ξ → Prop
  | [] => True
  | (m, stays) :: ms =>
    (stays = false → kind s m) ∧ (s.afterMove change m).LeavesOut change kind ms

variable {change : ξ → β → β} {s t : Session β}

theorem LeavesOut.of_forall {kind : Move ξ → Prop} {ms : Moves ξ}
    (h : ∀ m ∈ ms, m.2 = false → kind m.1) : s.LeavesOut change (fun _ => kind) ms := by
  induction ms generalizing s with
  | nil => trivial
  | cons m ms ih =>
    obtain ⟨hm, hrest⟩ := List.forall_mem_cons.mp h
    exact ⟨hm, ih hrest⟩

/-- Runs of all moves and of those that stay, on sessions related to begin with. -/
theorem results_kept {R : Session β → Session β → Prop} {kind : Session β → Move ξ → Prop}
    (hstays : ∀ s t m, R s t →
      s.resultOf change m = t.resultOf change m ∧ R (s.afterMove change m) (t.afterMove change m))
    (hleft : ∀ s t m, kind s m → R s t → R (s.afterMove change m) t) (h : R s t) {ms : Moves ξ}
    (hms : s.LeavesOut change kind ms) :
    t.results change ms.kept = s.resultsOfKept change ms ∧
      R (s.after change ms.all) (t.after change ms.kept) := by
  induction ms generalizing s t with
  | nil => exact ⟨rfl, h⟩
  | cons m ms ih =>
    obtain ⟨m, stays⟩ := m
    obtain ⟨hm, hms⟩ := hms
    cases stays with
    | true =>
      obtain ⟨hresult, hnext⟩ := hstays s t m h
      obtain ⟨hrest, hlast⟩ := ih hnext hms
      refine ⟨?_, hlast⟩
      change t.resultOf change m :: (t.afterMove change m).results change (Moves.kept ms) =
        s.resultOf change m :: (s.afterMove change m).resultsOfKept change ms
      rw [hresult, hrest]
    | false => exact ih (hleft s t m (hm rfl) h) hms

end Session
end ScopedSettings
