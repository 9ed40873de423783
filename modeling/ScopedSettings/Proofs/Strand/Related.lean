/-
Strands in step: two strands, each on a state of its own, that do the same at
the same time.

`Related R p q` says that wherever `p` reads, writes, or gives its turn away,
`q` does so too, that related states are read as the same, and that what is
written is related again. It is kept by everything strands are made of, side
by side included (`Related.both`, `Related.all`), and so strands in step give
the same value and leave related states (`Related.alone`). What relates the
two states is up to the user: a simulation of one store by another, or a state
and the same state with a history beside it. Strands that come to the same by
themselves, but take their turns and their time differently, are `Matching`.
-/
import Mathlib.Data.List.Forall2
import ScopedSettings.Strand

namespace ScopedSettings.Strand

variable {σ τ σ' τ' α β γ : Type}

/-- Two strands that do the same at the same time on related states. -/
inductive Related (R : σ → τ → Prop) : Strand σ α → Strand τ α → Prop
  | done (a : α) : Related R (.done a) (.done a)
  | read {p : σ → Strand σ α} {q : τ → Strand τ α} (h : ∀ s t, R s t → Related R (p s) (q t)) :
    Related R (.read p) (.read q)
  | write {s : σ} {t : τ} {p : Strand σ α} {q : Strand τ α} (hs : R s t) (h : Related R p q) :
    Related R (.write s p) (.write t q)
  | pause {p : Strand σ α} {q : Strand τ α} (h : Related R p q) : Related R (.pause p) (.pause q)
  | wait (d : Duration) {p : Strand σ α} {q : Strand τ α} (h : Related R p q) :
    Related R (.wait d p) (.wait d q)

namespace Related

variable {R : σ → τ → Prop}

theorem bind {p : Strand σ α} {q : Strand τ α} {f : α → Strand σ β} {g : α → Strand τ β}
    (h : Related R p q) (hf : ∀ a, Related R (f a) (g a)) : Related R (p >>= f) (q >>= g) := by
  induction h with
  | done a => exact hf a
  | read _ ih => exact .read fun s t hs => ih s t hs
  | write hs _ ih => exact .write hs ih
  | pause _ ih => exact .pause ih
  | wait d _ ih => exact .wait d ih

theorem map {p : Strand σ α} {q : Strand τ α} (f : α → β) (h : Related R p q) :
    Related R (f <$> p) (f <$> q) :=
  h.bind fun a => .done (f a)

theorem look {f : σ → α} {g : τ → α} (h : ∀ s t, R s t → f s = g t) :
    Related R (Strand.look f) (Strand.look g) :=
  .read fun s t hs => h s t hs ▸ .done _

theorem act {f : σ → α × σ} {g : τ → α × τ}
    (h : ∀ s t, R s t → (f s).1 = (g t).1 ∧ R (f s).2 (g t).2) :
    Related R (Strand.act f) (Strand.act g) := by
  refine .read fun s t hs => ?_
  obtain ⟨ha, hs'⟩ := h s t hs
  rw [ha]
  exact .write hs' (.done _)

theorem hold {p : Strand σ α} {q : Strand τ α} (d : Duration) (h : Related R p q) :
    Related R (Strand.hold d p) (Strand.hold d q) := by
  unfold Strand.hold
  split
  · exact h
  · exact .wait d h

/-- Strands in step on parts of the states are in step on the whole. -/
theorem on {R' : σ' → τ' → Prop} {part : σ' → σ} {put : σ → σ' → σ'} {part' : τ' → τ}
    {put' : τ → τ' → τ'} (hpart : ∀ s t, R' s t → R (part s) (part' t))
    (hput : ∀ u v s t, R u v → R' s t → R' (put u s) (put' v t)) {p : Strand σ α}
    {q : Strand τ α} (h : Related R p q) : Related R' (p.on part put) (q.on part' put') := by
  induction h with
  | done a => exact .done a
  | read _ ih => exact .read fun s t hs => ih _ _ (hpart s t hs)
  | write hu _ ih => exact .read fun s t hs => .write (hput _ _ s t hu hs) ih
  | pause _ ih => exact .pause ih
  | wait d _ ih => exact .wait d ih

section surroundings

variable {enter leave : σ → σ} {enter' leave' : τ → τ}
  (henter : ∀ s t, R s t → R (enter s) (enter' t)) (hleave : ∀ s t, R s t → R (leave s) (leave' t))
include henter hleave

theorem inside {p : Strand σ α} {q : Strand τ α} (h : Related R p q) :
    Related R (p.inside enter leave) (q.inside enter' leave') := by
  induction h with
  | done a => exact .read fun s t hs => .write (hleave s t hs) (.done a)
  | read _ ih => exact .read ih
  | write hs _ ih => exact .write hs ih
  | pause _ ih =>
    exact .read fun s t hs => .write (hleave s t hs) <| .pause <|
      .read fun s t hs => .write (henter s t hs) ih
  | wait d _ ih =>
    exact .read fun s t hs => .write (hleave s t hs) <| .wait d <|
      .read fun s t hs => .write (henter s t hs) ih

theorem within {p : Strand σ α} {q : Strand τ α} (h : Related R p q) :
    Related R (p.within enter leave) (q.within enter' leave') :=
  .read fun s t hs => .write (henter s t hs) (h.inside henter hleave)

end surroundings

/-! ## Side by side -/

section sideBySide

variable {both : Strand σ β → Strand σ γ} {both' : Strand τ β → Strand τ γ}
  {rest : β → Strand σ γ} {rest' : β → Strand τ γ}
  (hboth : ∀ q q', Related R q q' → Related R (both q) (both' q'))
  (hrest : ∀ b, Related R (rest b) (rest' b))
include hboth hrest

theorem inTurn {q : Strand σ β} {q' : Strand τ β} (h : Related R q q') :
    Related R (q.inTurn both rest) (q'.inTurn both' rest') := by
  induction h with
  | done b => exact .pause (hrest b)
  | read _ ih => exact .read ih
  | write hs _ ih => exact .write hs ih
  | pause h _ => exact .pause (hboth _ _ h)
  | wait d h _ => exact .pause (hboth _ _ (.wait d h))

theorem meanwhile {q : Strand σ β} {q' : Strand τ β} (h : Related R q q') (left : Duration) :
    Related R (q.meanwhile both rest left) (q'.meanwhile both' rest' left) := by
  induction h generalizing left with
  | done b => exact .wait left (hrest b)
  | read _ ih => exact .read fun s t hs => ih s t hs left
  | write hs _ ih => exact .write hs (ih left)
  | pause _ ih => exact .pause (ih left)
  | wait d h ih =>
    simp only [Strand.meanwhile]
    split
    · exact .wait d (ih _)
    · exact .wait left (hboth _ _ (h.hold _))

end sideBySide

theorem both {p : Strand σ α} {p' : Strand τ α} {q : Strand σ β} {q' : Strand τ β}
    (hp : Related R p p') (hq : Related R q q') : Related R (p.both q) (p'.both q') := by
  induction hp generalizing q q' with
  | done a => exact hq.bind fun b => .done (a, b)
  | read _ ih => exact .read fun s t hs => ih s t hs hq
  | write hs _ ih => exact .write hs (ih hq)
  | pause h ih => exact hq.inTurn (fun _ _ h' => ih h') fun b => h.bind fun a => .done (a, b)
  | wait d h ih =>
    exact hq.meanwhile (fun _ _ h' => ih h') (fun b => h.bind fun a => .done (a, b)) d

theorem all {ps : List (Strand σ α)} {qs : List (Strand τ α)} (h : List.Forall₂ (Related R) ps qs) :
    Related R (Strand.all ps) (Strand.all qs) := by
  induction h with
  | nil => exact .done []
  | cons hp _ ih => exact (hp.both ih).bind fun _ => .done _

/-! ## By themselves -/

/-- Strands in step give the same value and leave related states. -/
theorem alone {p : Strand σ α} {q : Strand τ α} (h : Related R p q) {s : σ} {t : τ} (hs : R s t) :
    (p.alone s).1 = (q.alone t).1 ∧ R (p.alone s).2 (q.alone t).2 := by
  induction h generalizing s t with
  | done a => exact ⟨rfl, hs⟩
  | read _ ih => exact ih s t hs hs
  | write hw _ ih => exact ih hw
  | pause _ ih => exact ih hs
  | wait d _ ih => exact ih hs

end Related

/-- Two strands that, each by itself on related states, come to the same value and leave
related states, however long they wait. -/
def Matching (R : σ → τ → Prop) (p : Strand σ α) (q : Strand τ α) : Prop :=
  ∀ s t, R s t → (p.alone s).1 = (q.alone t).1 ∧ R (p.alone s).2 (q.alone t).2

theorem Related.matching {R : σ → τ → Prop} {p : Strand σ α} {q : Strand τ α}
    (h : Related R p q) : Matching R p q :=
  fun _ _ hs => h.alone hs

namespace Matching

variable {R : σ → τ → Prop}

theorem act {f : σ → α × σ} {g : τ → α × τ}
    (h : ∀ s t, R s t → (f s).1 = (g t).1 ∧ R (f s).2 (g t).2) :
    Matching R (Strand.act f) (Strand.act g) :=
  (Related.act h).matching

theorem bind {p : Strand σ α} {q : Strand τ α} {f : α → Strand σ β} {g : α → Strand τ β}
    (h : Matching R p q) (hf : ∀ a, Matching R (f a) (g a)) : Matching R (p >>= f) (q >>= g) := by
  intro s t hs
  rw [bind_alone, bind_alone]
  obtain ⟨hvalue, hstate⟩ := h s t hs
  rw [hvalue]
  exact hf _ _ _ hstate

end Matching
end ScopedSettings.Strand
