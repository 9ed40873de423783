/-
What strands come to that keep an invariant of the state they share.

`Ends I P p` says of a strand that whatever it reads, if it is a state of the
invariant `I`, it writes such states only, and the value it ends in is one of `P`.
What happens between its turns does not matter as long as it keeps `I` too, so the
same is true of strands side by side (`Ends.both`, `Ends.all`), and of a strand by
itself (`Ends.alone`).
-/
import ScopedSettings.Proofs.Strand.Related

namespace ScopedSettings.Strand

variable {σ τ α β γ : Type}

/-- A strand that keeps an invariant, and ends in a value of a kind. -/
inductive Ends (I : σ → Prop) (P : α → Prop) : Strand σ α → Prop
  | done {a : α} (h : P a) : Ends I P (.done a)
  | read {p : σ → Strand σ α} (h : ∀ s, I s → Ends I P (p s)) : Ends I P (.read p)
  | write {s : σ} {p : Strand σ α} (hs : I s) (h : Ends I P p) : Ends I P (.write s p)
  | pause {p : Strand σ α} (h : Ends I P p) : Ends I P (.pause p)
  | wait (d : Duration) {p : Strand σ α} (h : Ends I P p) : Ends I P (.wait d p)

namespace Ends

variable {I : σ → Prop} {P : α → Prop} {Q : β → Prop} {R : γ → Prop}

theorem bind {p : Strand σ α} {f : α → Strand σ β} (h : Ends I P p)
    (hf : ∀ a, P a → Ends I Q (f a)) : Ends I Q (p >>= f) := by
  induction h with
  | done h => exact hf _ h
  | read _ ih => exact .read ih
  | write hs _ ih => exact .write hs ih
  | pause _ ih => exact .pause ih
  | wait d _ ih => exact .wait d ih

theorem map {p : Strand σ α} {f : α → β} (h : Ends I P p) (hf : ∀ a, P a → Q (f a)) :
    Ends I Q (f <$> p) :=
  h.bind fun a ha => .done (hf a ha)

theorem imp {p : Strand σ α} {P' : α → Prop} (h : Ends I P p) (hP : ∀ a, P a → P' a) :
    Ends I P' p := by
  have hbind := h.bind fun a ha => Ends.done (I := I) (hP a ha)
  rw [bind_done] at hbind
  exact hbind

theorem look {f : σ → α} (h : ∀ s, I s → P (f s)) : Ends I P (Strand.look f) :=
  .read fun s hs => .done (h s hs)

theorem act {f : σ → α × σ} (h : ∀ s, I s → P (f s).1 ∧ I (f s).2) : Ends I P (Strand.act f) :=
  .read fun s hs => .write (h s hs).2 (.done (h s hs).1)

theorem hold {p : Strand σ α} (d : Duration) (h : Ends I P p) : Ends I P (Strand.hold d p) := by
  unfold Strand.hold
  split
  · exact h
  · exact .wait d h

/-- Of any state, every strand makes a state. -/
theorem trivial (p : Strand σ α) : Ends (fun _ => True) (fun _ => True) p := by
  induction p with
  | done a => exact .done True.intro
  | read _ ih => exact .read fun s _ => ih s
  | write s _ ih => exact .write True.intro ih
  | pause _ ih => exact .pause ih
  | wait d _ ih => exact .wait d ih

/-- A strand on a part of the state. -/
theorem on {I' : τ → Prop} {part : τ → σ} {put : σ → τ → τ} (hpart : ∀ t, I' t → I (part t))
    (hput : ∀ s t, I s → I' t → I' (put s t)) {p : Strand σ α} (h : Ends I P p) :
    Ends I' P (p.on part put) := by
  induction h with
  | done h => exact .done h
  | read _ ih => exact .read fun t ht => ih _ (hpart t ht)
  | write hs _ ih => exact .read fun t ht => .write (hput _ t hs ht) ih
  | pause _ ih => exact .pause ih
  | wait d _ ih => exact .wait d ih

section surroundings

variable {enter leave : σ → σ} (henter : ∀ s, I s → I (enter s)) (hleave : ∀ s, I s → I (leave s))
include henter hleave

theorem inside {p : Strand σ α} (h : Ends I P p) : Ends I P (p.inside enter leave) := by
  induction h with
  | done h => exact .read fun s hs => .write (hleave s hs) (.done h)
  | read _ ih => exact .read ih
  | write hs _ ih => exact .write hs ih
  | pause _ ih =>
    exact .read fun s hs => .write (hleave s hs) <| .pause <|
      .read fun s hs => .write (henter s hs) ih
  | wait d _ ih =>
    exact .read fun s hs => .write (hleave s hs) <| .wait d <|
      .read fun s hs => .write (henter s hs) ih

theorem within {p : Strand σ α} (h : Ends I P p) : Ends I P (p.within enter leave) :=
  .read fun s hs => .write (henter s hs) (h.inside henter hleave)

end surroundings

/-! ## Side by side -/

section sideBySide

variable {both : Strand σ β → Strand σ γ} {rest : β → Strand σ γ}
  (hboth : ∀ q, Ends I Q q → Ends I R (both q)) (hrest : ∀ b, Q b → Ends I R (rest b))
include hboth hrest

theorem inTurn {q : Strand σ β} (h : Ends I Q q) : Ends I R (q.inTurn both rest) := by
  induction h with
  | done h => exact .pause (hrest _ h)
  | read _ ih => exact .read ih
  | write hs _ ih => exact .write hs ih
  | pause h _ => exact .pause (hboth _ h)
  | wait d h _ => exact .pause (hboth _ (.wait d h))

theorem meanwhile {q : Strand σ β} (h : Ends I Q q) (left : Duration) :
    Ends I R (q.meanwhile both rest left) := by
  induction h generalizing left with
  | done h => exact .wait left (hrest _ h)
  | read _ ih => exact .read fun s hs => ih s hs left
  | write hs _ ih => exact .write hs (ih left)
  | pause _ ih => exact .pause (ih left)
  | wait d h ih =>
    simp only [Strand.meanwhile]
    split
    · exact .wait d (ih _)
    · exact .wait left (hboth _ (h.hold _))

end sideBySide

theorem both {p : Strand σ α} {q : Strand σ β} (hp : Ends I P p) (hq : Ends I Q q) :
    Ends I (fun ab : α × β => P ab.1 ∧ Q ab.2) (p.both q) := by
  induction hp generalizing q with
  | done ha => exact hq.bind fun b hb => .done ⟨ha, hb⟩
  | read _ ih => exact .read fun s hs => ih s hs hq
  | write hs _ ih => exact .write hs (ih hq)
  | pause h ih =>
    exact hq.inTurn (fun _ hq => ih hq) fun b hb => h.bind fun a ha => .done ⟨ha, hb⟩
  | wait d h ih =>
    exact hq.meanwhile (fun _ hq => ih hq) (fun b hb => h.bind fun a ha => .done ⟨ha, hb⟩) d

theorem all {ps : List (Strand σ α)} (h : ∀ p ∈ ps, Ends I P p) :
    Ends I (fun as => ∀ a ∈ as, P a) (Strand.all ps) := by
  induction ps with
  | nil => exact .done fun _ ha => (List.not_mem_nil ha).elim
  | cons p ps ih =>
    obtain ⟨hp, hps⟩ := List.forall_mem_cons.mp h
    refine (hp.both (ih hps)).bind fun ⟨a, as⟩ ⟨ha, has⟩ => ?_
    exact .done (List.forall_mem_cons.mpr ⟨ha, has⟩)

/-! ## By themselves -/

/-- By itself a strand comes to a value of its kind, and leaves a state of the invariant. -/
theorem alone {p : Strand σ α} (h : Ends I P p) {s : σ} (hs : I s) :
    P (p.alone s).1 ∧ I (p.alone s).2 := by
  induction h generalizing s with
  | done h => exact ⟨h, hs⟩
  | read _ ih => exact ih s hs hs
  | write hw _ ih => exact ih hw
  | pause _ ih => exact ih hs
  | wait d _ ih => exact ih hs

end Ends

/-- A strand in step with one on states equal to its own keeps what makes them so. -/
theorem Related.ends {I : σ → Prop} {R : σ → σ → Prop} (hrefl : ∀ s, I s → R s s)
    (hleft : ∀ s t, R s t → I s) {p q : Strand σ α} (h : Related R p q) :
    Ends I (fun _ => True) p := by
  induction h with
  | done a => exact .done trivial
  | read _ ih => exact .read fun s hs => ih s s (hrefl s hs)
  | write hs _ ih => exact .write (hleft _ _ hs) ih
  | pause _ ih => exact .pause ih
  | wait d _ ih => exact .wait d ih

end ScopedSettings.Strand
