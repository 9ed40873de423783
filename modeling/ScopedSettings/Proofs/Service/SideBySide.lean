/-
Courses that are played side by side take turns.

`Strand.all` has one order in which it lets strands go on, and lets time pass between
them. Whatever that order is, each write of such a strand is a turn of one of the courses
(`Strand.Enacts`): this is shown of a course that is played, and kept when two strands are
put side by side. So what holds after all lists of turns holds of courses that are run
this way (`Concourse.exists_turns_all`), as it does of a course that has the service for
itself (`Service.play_alone`).
-/
import ScopedSettings.Proofs.Service.Courses
import ScopedSettings.Proofs.Service.Turns
import ScopedSettings.Store.File
import ScopedSettings.Store.Memory

namespace ScopedSettings

variable {β α γ δ ε : Type}

namespace Concourse

/-- Courses that have come to these answers. -/
def ended (as : List α) : List (Option (Course α)) :=
  as.map fun a => some (.done a)

theorem ended_append (as bs : List α) :
    ended (as ++ bs) = (ended as ++ ended bs : List (Option (Course α))) :=
  List.map_append

theorem answer?_of_ended {c : Concourse β α} {as : List α} (h : c.courses = ended as) (i : Nat) :
    c.answer? i = as[i]? := by
  unfold answer? course?
  rw [h, ended, List.getElem?_map]
  cases as[i]? <;> rfl

variable [Backend β]

/-- A turn of one of several callers leaves those before and after them where they are. -/
theorem turn_within {r : Service β} (before cs rest : List (Option (Course α))) {i : Nat}
    (hi : i < cs.length) :
    turn ⟨r, before ++ cs ++ rest⟩ (before.length + i) =
      ⟨(turn ⟨r, cs⟩ i).service, before ++ (turn ⟨r, cs⟩ i).courses ++ rest⟩ := by
  have hcourse : course? (⟨r, before ++ cs ++ rest⟩ : Concourse β α) (before.length + i) =
      course? (⟨r, cs⟩ : Concourse β α) i := by
    unfold course?
    rw [List.append_assoc, List.getElem?_append_right (Nat.le_add_right _ _),
      Nat.add_sub_cancel_left, List.getElem?_append_left hi]
  unfold turn
  rw [hcourse]
  split
  · rename_i call next _
    generalize (r.carryOut call.act) = answered
    refine congrArg (Concourse.mk _) ?_
    rw [List.append_assoc, List.set_append_right _ _ (Nat.le_add_right _ _),
      Nat.add_sub_cancel_left, List.set_append_left _ _ hi, ← List.append_assoc]
  all_goals rfl

end Concourse

open Concourse

variable [Backend β]

namespace Strand

/-- A strand that writes the service only as turns of the courses leave it, and ends, with a
value in which their answers are, when all of them have ended. Where it gives its turn away
it goes on with whatever service it finds. -/
def Enacts (answers : γ → List (Option α)) : Strand (Service β) γ → Concourse β α → Prop
  | .done g, c => ∃ as, c.courses = ended as ∧ answers g = as.map some
  | .read next, c => (next c.service).Enacts answers c
  | .write r next, c =>
    ∃ i < c.courses.length, (c.turn i).service = r ∧ next.Enacts answers (c.turn i)
  | .pause next, c => ∀ r, next.Enacts answers ⟨r, c.courses⟩
  | .wait _ next, c => ∀ r, next.Enacts answers ⟨r, c.courses⟩

/-- A strand at rest: it goes on with whatever service it finds. -/
abbrev Rests (answers : γ → List (Option α)) (p : Strand (Service β) γ)
    (cs : List (Option (Course α))) : Prop :=
  ∀ r, p.Enacts answers ⟨r, cs⟩

variable {p : Strand (Service β) γ} {q : Strand (Service β) δ} {r : Service β}
  {cs ds : List (Option (Course α))} {answers : γ → List (Option α)}
  {answers' : δ → List (Option α)} {answers'' : ε → List (Option α)}

theorem Rests.hold (h : p.Rests answers cs) (d : Duration) : (hold d p).Rests answers cs := by
  intro r
  unfold Strand.hold
  split
  · exact h r
  · exact h

/-- A strand's write is a turn of one of its courses also where there are others. -/
theorem enacts_write {i : Nat} (before : List (Option (Course α))) (hi : i < cs.length)
    (rest : List (Option (Course α)))
    (h : p.Enacts answers
      ⟨(turn ⟨r, cs⟩ i).service, before ++ (turn ⟨r, cs⟩ i).courses ++ rest⟩) :
    (Strand.write (turn ⟨r, cs⟩ i).service p).Enacts answers ⟨r, before ++ cs ++ rest⟩ := by
  have hturn := turn_within before cs rest hi (r := r)
  refine ⟨before.length + i, ?_, ?_, ?_⟩
  · simp only [List.length_append]
    omega
  · rw [hturn]
  · rw [hturn]
    exact h

/-- Courses that have ended, before and after those of a strand, with a value that has their
answers too. -/
theorem Enacts.among (h : p.Enacts answers ⟨r, cs⟩) (as bs : List α) {f : γ → ε}
    (hf : ∀ g, answers'' (f g) = as.map some ++ answers g ++ bs.map some) :
    (p >>= fun g => .done (f g)).Enacts answers'' ⟨r, ended as ++ cs ++ ended bs⟩ := by
  induction p generalizing r cs with
  | done g =>
    obtain ⟨xs, hcs, hanswers⟩ := h
    obtain rfl : cs = ended xs := hcs
    refine ⟨as ++ xs ++ bs, ?_, ?_⟩
    · rw [ended_append, ended_append]
    · rw [hf, hanswers, List.map_append, List.map_append]
  | read next ih => exact ih r h
  | write s next ih =>
    obtain ⟨i, hi, rfl, h⟩ := h
    exact enacts_write (ended as) hi (ended bs) (ih h)
  | pause next ih => exact fun r => ih (h r)
  | wait d next ih => exact fun r => ih (h r)

/-! ## Side by side -/

section Rounds

variable {go : Strand (Service β) δ → Strand (Service β) ε} {rest : δ → Strand (Service β) ε}

/-- A strand has its turn while another is at rest. -/
theorem Enacts.inTurn (h : q.Enacts answers' ⟨r, ds⟩)
    (hgo : ∀ {q : Strand (Service β) δ} {ds}, q.Rests answers' ds →
      (go q).Rests answers'' (cs ++ ds))
    (hrest : ∀ {b bs}, answers' b = bs.map some → (rest b).Rests answers'' (cs ++ ended bs)) :
    (q.inTurn go rest).Enacts answers'' ⟨r, cs ++ ds⟩ := by
  induction q generalizing r ds with
  | done b =>
    obtain ⟨bs, hds, hanswers⟩ := h
    obtain rfl : ds = ended bs := hds
    exact hrest hanswers
  | read next ih => exact ih r h
  | write s next ih =>
    obtain ⟨i, hi, rfl, h⟩ := h
    rw [← List.append_nil (cs ++ ds)]
    refine enacts_write cs hi [] ?_
    rw [List.append_nil]
    exact ih h
  | pause next => exact hgo h
  | wait d next => exact hgo (q := .wait d next) fun _ => h

/-- A strand has its turns while another is waiting. -/
theorem Enacts.meanwhile (h : q.Enacts answers' ⟨r, ds⟩) (left : Duration)
    (hgo : ∀ {q : Strand (Service β) δ} {ds}, q.Rests answers' ds →
      (go q).Rests answers'' (cs ++ ds))
    (hrest : ∀ {b bs}, answers' b = bs.map some → (rest b).Rests answers'' (cs ++ ended bs)) :
    (q.meanwhile go rest left).Enacts answers'' ⟨r, cs ++ ds⟩ := by
  induction q generalizing r ds left with
  | done b =>
    obtain ⟨bs, hds, hanswers⟩ := h
    obtain rfl : ds = ended bs := hds
    exact hrest hanswers
  | read next ih => exact ih r h left
  | write s next ih =>
    obtain ⟨i, hi, rfl, h⟩ := h
    rw [← List.append_nil (cs ++ ds)]
    refine enacts_write cs hi [] ?_
    rw [List.append_nil]
    exact ih h left
  | pause next ih => exact fun r => ih (h r) left
  | wait d next ih =>
    unfold Strand.meanwhile
    split
    · exact fun r => ih (h r) _
    · exact hgo (Rests.hold h _)

end Rounds

/-- A strand that goes on alone, once another has ended. -/
theorem Rests.paired (hp : p.Rests answers cs) {b : δ} {bs : List α}
    (hb : answers' b = bs.map some) :
    (p >>= fun a => .done (a, b)).Rests (fun x => answers x.1 ++ answers' x.2)
      (cs ++ ended bs) :=
  fun r => (hp r).among [] bs fun a => by rw [hb]; rfl

/-- Two strands side by side, the second at rest. -/
theorem Enacts.both (hp : p.Enacts answers ⟨r, cs⟩) (hq : q.Rests answers' ds) :
    (p.both q).Enacts (fun x => answers x.1 ++ answers' x.2) ⟨r, cs ++ ds⟩ := by
  induction p generalizing r cs q ds with
  | done a =>
    obtain ⟨as, hcs, hanswers⟩ := hp
    obtain rfl : cs = ended as := hcs
    rw [← List.append_nil (ended as ++ ds)]
    refine (hq r).among as [] fun b => ?_
    rw [hanswers]
    exact (List.append_nil _).symm
  | read next ih => exact ih r hp hq
  | write s next ih =>
    obtain ⟨i, hi, rfl, hp⟩ := hp
    exact enacts_write [] hi ds (ih hp hq)
  | pause next ih =>
    exact (hq r).inTurn (fun hq r => ih (hp r) hq) fun hb => Rests.paired hp hb
  | wait d next ih =>
    exact (hq r).meanwhile d (fun hq r => ih (hp r) hq) fun hb => Rests.paired hp hb

/-- All of several strands at rest, side by side. -/
theorem Rests.all {κ : Type} {f : κ → Strand (Service β) γ}
    {courses : κ → List (Option (Course α))} (h : ∀ k, (f k).Rests answers (courses k))
    (ks : List κ) :
    (Strand.all (ks.map f)).Rests (List.flatMap answers) (ks.flatMap courses) := by
  induction ks with
  | nil => exact fun _ => ⟨[], rfl, rfl⟩
  | cons k ks ih =>
    intro r
    rw [← List.append_nil (List.flatMap _ _)]
    refine ((h k r).both ih).among [] [] fun x => ?_
    exact (List.append_nil _).symm

/-- What a strand comes to by itself is what turns of its courses come to. -/
theorem Enacts.exists_turns {c : Concourse β α} (h : p.Enacts answers c) :
    ∃ turns as, (c.after turns).service = (p.alone c.service).2 ∧
      (c.after turns).courses = ended as ∧ answers (p.alone c.service).1 = as.map some := by
  induction p generalizing c with
  | done g =>
    obtain ⟨as, hcourses, hanswers⟩ := h
    exact ⟨[], as, rfl, hcourses, hanswers⟩
  | read next ih => exact ih _ h
  | write s next ih =>
    obtain ⟨i, -, rfl, h⟩ := h
    obtain ⟨turns, as, h⟩ := ih h
    exact ⟨i :: turns, as, h⟩
  | pause next ih => exact ih (h c.service)
  | wait d next ih => exact ih (h c.service)

end Strand

/-! ## Courses -/

/-- A store that answers whatever it is asked. -/
structure Backend.Answers (β : Type) [Backend β] : Prop where
  load (b : β) : (Backend.load b).2 ≠ .never
  commit (b : β) (u : Update) (now : Instant) : (commit b u now).2 ≠ .never

theorem MemoryStore.answers : Backend.Answers MemoryStore where
  load _ := nofun
  commit m u now := by
    change (m.commit u now).2 ≠ .never
    unfold MemoryStore.commit
    split <;> nofun

theorem FileStore.answers : Backend.Answers FileStore where
  load _ := nofun
  commit _ _ _ := nofun

namespace Service

theorem exists_answer (h : Backend.Answers β) (r : Service β) (a : Act) :
    ∃ x, (r.carryOut a).1 = some x := by
  cases a with
  | fetch => exact exists_awaitFetch (.inr (h.load r.backend)) _
  | commit u now => exact exists_awaited (h.commit r.backend u now)
  | _ => exact ⟨_, rfl⟩

/-- A course that is played makes its turns. -/
theorem rests_play (h : Backend.Answers β) (c : Course α) :
    (play c none : Strand (Service β) _).Rests (fun x => [x.map Prod.fst]) [some c] := by
  induction c with
  | done a => exact fun _ => ⟨[a], rfl, rfl⟩
  | step call next ih =>
    intro r
    obtain ⟨⟨waited, x⟩, hanswer⟩ := exists_answer h r call.act
    have hturn : turn ⟨r, [some (Procedure.step call next)]⟩ 0 =
        ⟨(r.carryOut call.act).2, [some (next x)]⟩ := by
      change Concourse.mk _ [Option.map _ (r.carryOut call.act).1] = _
      rw [hanswer]
      rfl
    unfold play
    simp only [Strand.Enacts]
    rw [hanswer]
    refine ⟨0, Nat.zero_lt_one, congrArg service hturn, ?_⟩
    rw [hturn]
    exact (ih x).hold waited _

end Service

/-- Courses that are played side by side come to what they come to by turns. -/
theorem Concourse.exists_turns_all (h : Backend.Answers β) (r : Service β)
    (courses : List (Course α)) :
    ∃ (turns : List Nat) (as : List α),
      ((ofCourses r courses).after turns).service =
        ((Strand.all (courses.map (Service.play · none))).alone r).2 ∧
      (∀ i, ((ofCourses r courses).after turns).answer? i = as[i]?) ∧
      ((Strand.all (courses.map (Service.play · none))).alone r).1.map (Option.map Prod.fst) =
        as.map some := by
  obtain ⟨turns, as, hservice, hcourses, hvalues⟩ :=
    (Strand.Rests.all (Service.rests_play h) courses r).exists_turns
  rw [← List.map_eq_flatMap] at hvalues
  rw [← List.map_eq_flatMap] at hservice hcourses
  exact ⟨turns, as, hservice, answer?_of_ended hcourses, hvalues⟩

end ScopedSettings
