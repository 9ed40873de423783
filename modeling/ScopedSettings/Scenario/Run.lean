/-
Scenarios carried out: the bench as the machine that programs of tasks run on.
-/
import ScopedSettings.Program
import ScopedSettings.Scenario.Basic

namespace ScopedSettings.Scenario

/-- The machine of a bench. Each task has a patience of its own; starting and ending
a unit are waited for without a limit. -/
def machine : Machine Task (Option Finding) Bench Glance where
  perform := Bench.perform
  failure? found := found.bind Finding.failure?
  observe := Bench.glance
  enter w b := { b with session := b.session.enter w }
  leave b := { b with session := b.session.leave }
  start w := Bench.inSession (Session.startUnit w)
  finish w := Bench.inSession (Session.finishUnit w)

/-- What the steps of a scenario come to, each with what is seen of the bench after it. -/
def run (steps : List (Step Task ν)) (b : Bench) : Trace (Option Finding) ν Glance :=
  (((Steps.ofList steps).perform machine false).alone b).1.1

end ScopedSettings.Scenario
