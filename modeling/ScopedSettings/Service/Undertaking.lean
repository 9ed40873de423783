/-
Operations as single steps of their callers.

A course goes from act to act, and other callers may have their turns between two of
them. Where callers take turns operation by operation, what a caller does is a conduct
instead: a procedure whose steps are undertakings, each of them a course that is carried
out within one turn. A conduct put down act by act (`Conduct.expand`) is a course.
-/
import ScopedSettings.Service.Access

namespace ScopedSettings

/-- An operation of the service as one step of its caller. -/
inductive Undertaking
  | enroll
  | stats
  | get (w : WorkerId) (bypass : Bool)
  | fetch
  | write (w : WorkerId) (u : Update) (now : Instant)
  | start (w : WorkerId)
  | finish (w : WorkerId)

namespace Undertaking

abbrev Answer : Undertaking → Type
  | .enroll => WorkerId
  | .stats => CacheStats
  | .get _ _ | .fetch | .write _ _ _ => Except SettingsError Settings
  | .start _ | .finish _ => Unit

def course : (k : Undertaking) → Course k.Answer
  | .enroll => Course.act .enroll
  | .stats => Course.act .stats
  | .get w bypass => Course.get w bypass
  | .fetch => Course.fetch
  | .write w u now => Course.write w u now
  | .start w => Course.start w
  | .finish w => Course.finish w

end Undertaking

/-- A step of a conduct: the undertaking, and the workers whose units it holds open. -/
structure Job where
  undertaking : Undertaking
  held : List WorkerId := []

abbrev Job.Answer (j : Job) : Type :=
  j.undertaking.Answer

abbrev Conduct := Procedure Job.Answer

namespace Conduct

/-- The conduct of one undertaking, which holds no unit open. -/
def run (k : Undertaking) : Conduct k.Answer :=
  Procedure.act (⟨k, []⟩ : Job)

/-- The conduct with the unit of a worker held open at each of its steps. -/
def holding (w : WorkerId) : Conduct α → Conduct α
  | .done a => .done a
  | .step ⟨k, held⟩ next => .step ⟨k, w :: held⟩ fun x => holding w (next x)

/-- Runs a conduct as one unit of work. -/
def unit (w : WorkerId) (body : Conduct α) : Conduct α := do
  let _ : Unit ← run (.start w)
  let a ← holding w body
  let _ : Unit ← run (.finish w)
  return a

/-- The course of a conduct, each undertaking put down as the acts it consists of. -/
def expand : Conduct α → Course α
  | .done a => .done a
  | .step ⟨k, held⟩ next => held.foldr Course.holding k.course >>= fun x => expand (next x)

end Conduct
end ScopedSettings
