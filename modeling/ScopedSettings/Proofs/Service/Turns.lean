/-
What is kept through turns of callers side by side.

A course shows only its next act, so that facts about callers are said of stages
instead: a plan has the act of each stage and the stage that follows an answer
(`Plan`), and a course that follows a plan stays at the stage its answers lead to
(`Plan.Follows`). What holds of the stages first, and what every turn keeps, holds
after all turns (`Concourse.exists_stages`).
-/
import Mathlib.Data.List.Induction
import ScopedSettings.Service.Concourse

namespace ScopedSettings

/-- Stages of courses: the act of each and what follows its answer, or what the course has
come to. -/
structure Plan (σ α : Type) where
  act? : σ → Option Act
  next : σ → (a : Act) → a.Answer → σ
  answer? : σ → Option α

namespace Plan

variable {σ α : Type}

/-- Is a course at a stage, and will it go on as planned? -/
def Follows (p : Plan σ α) : Course α → σ → Prop
  | .done a, st => p.act? st = none ∧ p.answer? st = some a
  | .step call rest, st =>
    p.act? st = some call.act ∧ p.answer? st = none ∧
      ∀ x, p.Follows (rest x) (p.next st call.act x)

/-- The stage after an act; without an answer it stays. -/
def onward (p : Plan σ α) (st : σ) (a : Act) : Service.Awaited a.Answer → σ
  | none => st
  | some (_, x) => p.next st a x

end Plan

namespace Concourse

variable {β σ α : Type} {c : Concourse β α} {p : Plan σ α} {stages : Nat → σ}

/-- Are the callers at the given stages? -/
def IsAt (p : Plan σ α) (c : Concourse β α) (stages : Nat → σ) : Prop :=
  ∀ i course, c.course? i = some course → p.Follows course (stages i)

theorem IsAt.act?_eq (h : IsAt p c stages) {i : Nat} {a : Act} (ha : c.act? i = some a) :
    p.act? (stages i) = some a := by
  unfold act? at ha
  split at ha
  · rename_i call next hcourse
    rw [(h i _ hcourse).1]
    exact ha
  all_goals cases ha

theorem IsAt.answer?_eq (h : IsAt p c stages) {i : Nat} {x : α} (hx : c.answer? i = some x) :
    p.answer? (stages i) = some x := by
  unfold answer? at hx
  split at hx
  · rename_i a hcourse
    rw [(h i _ hcourse).2]
    exact hx
  all_goals cases hx

theorem exists_step_of_act? {i : Nat} {a : Act} (h : c.act? i = some a) :
    ∃ call next, c.course? i = some (.step call next) ∧ call.act = a := by
  unfold act? at h
  split at h
  · rename_i call next hcourse
    cases h
    exact ⟨call, next, hcourse, rfl⟩
  all_goals cases h

theorem answer?_of_act? {i : Nat} {a : Act} (h : c.act? i = some a) : c.answer? i = none := by
  obtain ⟨call, next, hcourse, -⟩ := exists_step_of_act? h
  unfold answer?
  rw [hcourse]

theorem course?_ofCourses (r : Service β) (courses : List (Course α)) (i : Nat) :
    (ofCourses r courses).course? i = courses[i]? := by
  unfold course? ofCourses
  rw [List.getElem?_map]
  cases courses[i]? <;> rfl

variable [Backend β]

/-! ## Turns -/

theorem after_append (c : Concourse β α) (turns turns' : List Nat) :
    c.after (turns ++ turns') = (c.after turns).after turns' :=
  List.foldl_append

theorem after_concat (c : Concourse β α) (turns : List Nat) (i : Nat) :
    c.after (turns ++ [i]) = (c.after turns).turn i :=
  c.after_append turns [i]

theorem acts_concat (c : Concourse β α) (turns : List Nat) (i : Nat) :
    c.acts (turns ++ [i]) = c.acts turns ++ (((c.after turns).act? i).map (i, ·)).toList := by
  induction turns generalizing c with
  | nil => simp [acts, after]
  | cons j turns ih =>
    rw [List.cons_append, acts, acts, ih, List.append_assoc]
    rfl

/-- A caller without an act leaves everything at its turn. -/
theorem turn_of_idle {i : Nat} (h : c.act? i = none) : c.turn i = c := by
  unfold act? at h
  unfold turn
  split
  · rename_i call next hcourse
    rw [hcourse] at h
    cases h
  all_goals rfl

theorem service_turn {i : Nat} {a : Act} (h : c.act? i = some a) :
    (c.turn i).service = (c.service.carryOut a).2 := by
  obtain ⟨call, next, hcourse, rfl⟩ := exists_step_of_act? h
  unfold turn
  rw [hcourse]

theorem course?_turn_other (c : Concourse β α) {i j : Nat} (h : j ≠ i) :
    (c.turn i).course? j = c.course? j := by
  unfold turn
  split
  · change (c.courses.set i _)[j]?.join = c.courses[j]?.join
    rw [List.getElem?_set_ne (Ne.symm h)]
  all_goals rfl

theorem course?_turn_self {i : Nat} {call : Call} {next : call.Answer → Course α}
    (h : c.course? i = some (.step call next)) :
    (c.turn i).course? i = (c.service.carryOut call.act).1.map fun x => next x.2 := by
  have hlt : i < c.courses.length := by
    by_contra hge
    unfold course? at h
    rw [List.getElem?_eq_none (Nat.le_of_not_lt hge)] at h
    cases h
  unfold turn
  rw [h]
  change (c.courses.set i _)[i]?.join = _
  rw [List.getElem?_set_self hlt]
  rfl

/-- A turn takes its caller to the next stage. -/
theorem IsAt.turn (h : IsAt p c stages) {i : Nat} {a : Act} (ha : c.act? i = some a) :
    IsAt p (c.turn i)
      (Function.update stages i (p.onward (stages i) a (c.service.carryOut a).1)) := by
  obtain ⟨call, next, hcourse, rfl⟩ := exists_step_of_act? ha
  obtain ⟨-, -, hnext⟩ := h i _ hcourse
  intro j course hj
  by_cases hji : j = i
  · subst hji
    rw [Function.update_self]
    rw [course?_turn_self hcourse] at hj
    obtain ⟨⟨waited, x⟩, hanswer, rfl⟩ := Option.map_eq_some_iff.mp hj
    rw [hanswer]
    exact hnext x
  · rw [Function.update_of_ne hji]
    rw [course?_turn_other c hji] at hj
    exact h j course hj

/-! ## Runs -/

/-- What holds of the stages that callers are at, and is kept by every act, holds after
all turns. -/
theorem exists_stages {c₀ : Concourse β α} {stages₀ : Nat → σ} {I : List Nat → (Nat → σ) → Prop}
    (hat : IsAt p c₀ stages₀) (hfirst : I [] stages₀)
    (hidle : ∀ {turns stages i}, (c₀.after turns).act? i = none → I turns stages →
      I (turns ++ [i]) stages)
    (hact : ∀ {turns stages i a}, (c₀.after turns).act? i = some a → p.act? (stages i) = some a →
      I turns stages →
      I (turns ++ [i])
        (Function.update stages i
          (p.onward (stages i) a ((c₀.after turns).service.carryOut a).1)))
    (turns : List Nat) : ∃ stages, IsAt p (c₀.after turns) stages ∧ I turns stages := by
  induction turns using List.reverseRecOn with
  | nil => exact ⟨stages₀, hat, hfirst⟩
  | append_singleton turns i ih =>
    obtain ⟨stages, hat, hI⟩ := ih
    rw [after_concat]
    cases ha : (c₀.after turns).act? i with
    | none =>
      rw [turn_of_idle ha]
      exact ⟨stages, hat, hidle ha hI⟩
    | some a => exact ⟨_, hat.turn ha, hact ha (hat.act?_eq ha) hI⟩

end Concourse

end ScopedSettings
