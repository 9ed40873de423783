/-
Strands that do the same where it is known what they start from.

`Agree B P s p q` says that from the state `s` on the two do the same: until they give
their turn away, which they do on states of `B` only, and again from whatever state of
`B` they go on from; and that they end, on a state of `B`, in the same value, one of
`P`. Other than for strands in step (`Related`), what is known between two turns need
not be so within them: a strand that spends its turns in a surrounding leaves it before
others have theirs (`Agree.within`), so two strands may agree because of the surrounding
though it is not there for anyone else.
-/
import ScopedSettings.Proofs.Strand.Ends

namespace ScopedSettings.Strand

variable {σ τ α β γ : Type}

/-- From a state on, two strands do the same, and end in a value of a kind. -/
inductive Agree (B : σ → Prop) (P : α → Prop) : σ → Strand σ α → Strand σ α → Prop
  | done {s : σ} {a : α} (hs : B s) (h : P a) : Agree B P s (.done a) (.done a)
  | read {s : σ} {p q : σ → Strand σ α} (h : Agree B P s (p s) (q s)) :
    Agree B P s (.read p) (.read q)
  | write {s t : σ} {p q : Strand σ α} (h : Agree B P t p q) :
    Agree B P s (.write t p) (.write t q)
  | pause {s : σ} {p q : Strand σ α} (hs : B s) (h : ∀ t, B t → Agree B P t p q) :
    Agree B P s (.pause p) (.pause q)
  | wait {s : σ} (d : Duration) {p q : Strand σ α} (hs : B s) (h : ∀ t, B t → Agree B P t p q) :
    Agree B P s (.wait d p) (.wait d q)

/-- A strand that keeps an invariant agrees with itself on the states of it. -/
theorem Ends.agree {B : σ → Prop} {P : α → Prop} {p : Strand σ α} (h : Ends B P p) {s : σ}
    (hs : B s) : Agree B P s p p := by
  induction h generalizing s with
  | done h => exact .done hs h
  | read _ ih => exact .read (ih s hs hs)
  | write hw _ ih => exact .write (ih hw)
  | pause _ ih => exact .pause hs fun _ ht => ih ht
  | wait d _ ih => exact .wait d hs fun _ ht => ih ht

namespace Agree

variable {B : σ → Prop} {P : α → Prop} {Q : β → Prop} {R : γ → Prop} {s : σ}

theorem bind {p q : Strand σ α} {f g : α → Strand σ β} (h : Agree B P s p q)
    (hf : ∀ a t, P a → B t → Agree B Q t (f a) (g a)) : Agree B Q s (p >>= f) (q >>= g) := by
  induction h with
  | done hs h => exact hf _ _ h hs
  | read _ ih => exact .read ih
  | write _ ih => exact .write ih
  | pause hs _ ih => exact .pause hs ih
  | wait d hs _ ih => exact .wait d hs ih

theorem map {p q : Strand σ α} {f : α → β} (h : Agree B P s p q) (hf : ∀ a, P a → Q (f a)) :
    Agree B Q s (f <$> p) (f <$> q) :=
  h.bind fun a _ ha ht => .done ht (hf a ha)

theorem imp {P' : α → Prop} {p q : Strand σ α} (h : Agree B P s p q) (hP : ∀ a, P a → P' a) :
    Agree B P' s p q := by
  have hbind := h.bind fun a _ ha ht => Agree.done ht (hP a ha)
  rw [bind_done, bind_done] at hbind
  exact hbind

theorem hold {p q : Strand σ α} (d : Duration) (hs : B s) (h : ∀ t, B t → Agree B P t p q) :
    Agree B P s (Strand.hold d p) (Strand.hold d q) := by
  unfold Strand.hold
  split
  · exact h s hs
  · exact .wait d hs h

/-- Strands that agree on a part of the state agree on the whole. -/
theorem on {part : τ → σ} {put : σ → τ → τ} (hpart : ∀ s t, part (put s t) = s) {t : τ}
    {p q : Strand σ α} (h : Agree B P (part t) p q) :
    Agree (fun t => B (part t)) P t (p.on part put) (q.on part put) := by
  generalize hs : part t = s at h
  induction h generalizing t with
  | done hB h => exact .done (hs ▸ hB) h
  | read _ ih =>
    subst hs
    exact .read (ih rfl)
  | @write s s' p q _ ih =>
    refine .read (.write (ih ?_))
    exact hpart s' t
  | pause hB _ ih => exact .pause (hs ▸ hB) fun t ht => ih _ ht rfl
  | wait d hB _ ih => exact .wait d (hs ▸ hB) fun t ht => ih _ ht rfl

section surroundings

variable {B' : σ → Prop} {enter leave : σ → σ} (henter : ∀ s, B s → B' (enter s))
  (hleave : ∀ s, B' s → B (leave s))
include henter hleave

theorem inside {p q : Strand σ α} (h : Agree B' P s p q) :
    Agree B P s (p.inside enter leave) (q.inside enter leave) := by
  induction h with
  | done hs h => exact .read (.write (.done (hleave _ hs) h))
  | read _ ih => exact .read ih
  | write _ ih => exact .write ih
  | pause hs _ ih =>
    refine .read (.write (.pause (hleave _ hs) fun t ht => ?_))
    exact .read (.write (ih _ (henter t ht)))
  | wait d hs _ ih =>
    refine .read (.write (.wait d (hleave _ hs) fun t ht => ?_))
    exact .read (.write (ih _ (henter t ht)))

/-- Strands that agree in a surrounding agree where it is entered for each of their turns. -/
theorem within {p q : Strand σ α} (h : Agree B' P (enter s) p q) :
    Agree B P s (p.within enter leave) (q.within enter leave) :=
  .read (.write (h.inside henter hleave))

end surroundings

/-! ## Side by side -/

section sideBySide

variable {both both' : Strand σ β → Strand σ γ} {rest rest' : β → Strand σ γ}
  (hboth : ∀ q q' t, (∀ t, B t → Agree B Q t q q') → B t → Agree B R t (both q) (both' q'))
  (hrest : ∀ b t, Q b → B t → Agree B R t (rest b) (rest' b))
include hboth hrest

theorem inTurn {q q' : Strand σ β} (h : Agree B Q s q q') :
    Agree B R s (q.inTurn both rest) (q'.inTurn both' rest') := by
  induction h with
  | done hs h => exact .pause hs fun t ht => hrest _ t h ht
  | read _ ih => exact .read ih
  | write _ ih => exact .write ih
  | pause hs h _ => exact .pause hs fun t ht => hboth _ _ t h ht
  | wait d hs h _ => exact .pause hs fun t ht => hboth _ _ t (fun _ ht => .wait d ht h) ht

theorem meanwhile {q q' : Strand σ β} (h : Agree B Q s q q') (left : Duration) :
    Agree B R s (q.meanwhile both rest left) (q'.meanwhile both' rest' left) := by
  induction h generalizing left with
  | done hs h => exact .wait left hs fun t ht => hrest _ t h ht
  | read _ ih => exact .read (ih left)
  | write _ ih => exact .write (ih left)
  | pause hs _ ih => exact .pause hs fun t ht => ih t ht left
  | wait d hs h ih =>
    simp only [Strand.meanwhile]
    split
    · exact .wait d hs fun t ht => ih t ht _
    · exact .wait left hs fun t ht => hboth _ _ t (fun _ hu => .hold _ hu h) ht

end sideBySide

theorem both {p p' : Strand σ α} {q q' : Strand σ β} (hp : Agree B P s p p')
    (hq : ∀ t, B t → Agree B Q t q q') :
    Agree B (fun ab : α × β => P ab.1 ∧ Q ab.2) s (p.both q) (p'.both q') := by
  induction hp generalizing q q' with
  | done hs ha => exact (hq _ hs).bind fun b t hb ht => .done ht ⟨ha, hb⟩
  | read _ ih => exact .read (ih hq)
  | write _ ih => exact .write (ih hq)
  | pause hs h ih =>
    refine (hq _ hs).inTurn (fun _ _ t hq ht => ih t ht hq) fun b t hb ht => ?_
    exact (h t ht).bind fun a u ha hu => .done hu ⟨ha, hb⟩
  | wait d hs h ih =>
    refine (hq _ hs).meanwhile (fun _ _ t hq ht => ih t ht hq) (fun b t hb ht => ?_) d
    exact (h t ht).bind fun a u ha hu => .done hu ⟨ha, hb⟩

/-! ## By themselves -/

/-- By themselves strands that agree do the same, and leave a state that is known of. -/
theorem alone {p q : Strand σ α} (h : Agree B P s p q) :
    q.alone s = p.alone s ∧ P (p.alone s).1 ∧ B (p.alone s).2 := by
  induction h with
  | done hs h => exact ⟨rfl, h, hs⟩
  | read _ ih => exact ih
  | write _ ih => exact ih
  | pause hs _ ih => exact ih _ hs
  | wait d hs _ ih => exact ih _ hs

end Agree
end ScopedSettings.Strand
