/-
Courses side by side: callers of one service, each at some step of its course.

A turn carries the next act of one course out. Nothing is said about whose turn
comes next, so what holds for all lists of turns holds however the callers' steps
fall. An answer is there for the caller's next turn, however late that comes; a
caller that never gets an answer has no turn any more.
-/
import ScopedSettings.Service.Access

namespace ScopedSettings

/-- Courses on one service; `none` stands for one that waits for ever. -/
structure Concourse (β α : Type) where
  service : Service β
  courses : List (Option (Course α))

namespace Concourse

variable {β α : Type}

def ofCourses (service : Service β) (courses : List (Course α)) : Concourse β α where
  service
  courses := courses.map some

/-- What is left of a caller's course. -/
def course? (c : Concourse β α) (i : Nat) : Option (Course α) :=
  c.courses[i]?.join

/-- The act that a caller's turn carries out, if the caller has one. -/
def act? (c : Concourse β α) (i : Nat) : Option Act :=
  match c.course? i with
  | some (.step call _) => some call.act
  | some (.done _) | none => none

/-- What a caller has come to, if it has ended. -/
def answer? (c : Concourse β α) (i : Nat) : Option α :=
  match c.course? i with
  | some (.done a) => some a
  | some (.step _ _) | none => none

variable [Backend β]

/-- A caller's turn. -/
def turn (c : Concourse β α) (i : Nat) : Concourse β α :=
  match c.course? i with
  | some (.step call next) =>
    let (answer, service) := c.service.carryOut call.act
    { service, courses := c.courses.set i (answer.map fun x => next x.2) }
  | some (.done _) | none => c

/-- The callers after turns, one after another. -/
def after (c : Concourse β α) (turns : List Nat) : Concourse β α :=
  turns.foldl turn c

/-- The acts that turns carry out, in order, with whose they are. -/
def acts (c : Concourse β α) : List Nat → List (Nat × Act)
  | [] => []
  | i :: turns => ((c.act? i).map (i, ·)).toList ++ (c.turn i).acts turns

end Concourse
end ScopedSettings
