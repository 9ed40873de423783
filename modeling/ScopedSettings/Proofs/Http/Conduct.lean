/-
The conduct of a request is its course.

Putting a conduct down act by act goes through its steps one by one (`Conduct.expand_bind`)
and leaves its units open where they are (`Conduct.expand_holding`), so the operations of a
request, taken together, are what the interface does for it (`Http.expand_conduct`).
-/
import ScopedSettings.Http.Conduct

namespace ScopedSettings

theorem Course.holding_bind (w : WorkerId) (c : Course α) (f : α → Course γ) :
    Course.holding w (c >>= f) = Course.holding w c >>= fun a => Course.holding w (f a) := by
  induction c with
  | done a => rfl
  | step call next ih =>
    simp only [Procedure.step_bind, holding, ih]

namespace Conduct

theorem expand_bind (c : Conduct α) (f : α → Conduct γ) :
    expand (c >>= f) = expand c >>= fun a => expand (f a) := by
  induction c with
  | done a => rfl
  | step job next ih =>
    simp only [Procedure.step_bind, expand, ih]
    rw [Procedure.bind_assoc]

theorem expand_holding (w : WorkerId) (c : Conduct α) :
    expand (holding w c) = Course.holding w (expand c) := by
  induction c with
  | done a => rfl
  | step job next ih =>
    simp only [holding, expand, ih, List.foldr_cons, Course.holding_bind]

theorem expand_unit (w : WorkerId) (body : Conduct α) :
    expand (unit w body) = Course.unit w (expand body) := by
  have hbody : expand (holding w body >>= fun a => run (.finish w) >>= fun _ => pure a) =
      Course.holding w (expand body) >>= fun a => Course.finish w >>= fun _ => pure a := by
    rw [expand_bind, expand_holding]
    rfl
  exact congrArg (Course.start w >>= ·) (funext fun _ => hbody)

end Conduct

namespace Http

open Conduct

theorem expand_servingSettings (w : WorkerId) :
    expand (servingSettings w) = serveSettings w := rfl

theorem expand_changingSettings (r : Request) (now : Instant) (w : WorkerId) :
    expand (changingSettings r now w) = changeSettings r now w := by
  unfold changingSettings changeSettings
  cases updateOf r with
  | error f => rfl
  | ok u =>
    refine congrArg (Course.write w u now >>= ·) (funext fun answer => ?_)
    cases answer with
    | error e => rfl
    | ok s => exact expand_servingSettings w

theorem expand_servingStats : expand servingStats = serveStats := rfl

theorem expand_unitOfWork (handler : WorkerId → Conduct Response) :
    expand (unitOfWork handler) = asUnit fun w => expand (handler w) :=
  congrArg (Course.act .enroll >>= ·) (funext fun w => expand_unit w (handler w))

theorem Route.expand_conduct (p : Route) (r : Request) (now : Instant) :
    expand (p.conduct r now) = p.handle r now := by
  cases p with
  | settings =>
    unfold Route.conduct Route.handle
    rw [expand_unitOfWork]
    refine congrArg asUnit (funext fun w => ?_)
    split
    · exact expand_servingSettings w
    · split
      · exact expand_changingSettings r now w
      · rfl
  | stats =>
    unfold Route.conduct Route.handle
    dsimp only
    split
    · exact expand_servingStats
    · rfl
  | health => rfl

/-- A request's operations, one after another, are what the interface does for it. -/
theorem expand_conduct (r : Request) (now : Instant) :
    expand (conduct r now) = handle r now := by
  unfold conduct handle
  dsimp only
  split
  · rfl
  · cases Route.of? r.path with
    | none => rfl
    | some p =>
      simp only [expand_bind, p.expand_conduct]
      rfl

end Http
end ScopedSettings
