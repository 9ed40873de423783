/-
Sessions: operations on a service, one after another.

An operation that names no worker acts for the current one, which is the
worker of the innermost scope, or the thread's own outside any. Units of work
that are begun stay open under a name until they are ended; a name that is
given again ends the unit that had it, after the new one has begun.
-/
import ScopedSettings.Service.Access

namespace ScopedSettings

/-- A service in use. -/
structure Session (β : Type) where
  service : Service β
  /-- The worker outside any scope. -/
  thread : WorkerId
  /-- The workers of the scopes entered and not yet left, the innermost first. -/
  scopes : List WorkerId := []
  /-- The units of work that are open, by name. -/
  units : List (String × WorkerId) := []

/-- What can be done with a service. -/
inductive Operation
  | get (worker : Option WorkerId) (bypass : Bool)
  | fetch
  | write (worker : Option WorkerId) (update : Update) (now : Instant)
  | start (worker : WorkerId)
  | succeed (worker : WorkerId)
  | fail (worker : WorkerId)
  | begin (worker : WorkerId) (name : String)
  | succeedUnit (name : String)
  | failUnit (name : String)
  | dropUnit (name : String)

/-- What an operation comes to. -/
inductive Outcome
  | settings (answer : Except SettingsError Settings)
  | started
  | ended
  | begun (worker : WorkerId)
  /-- There is no open unit of the name. -/
  | noUnit

def Outcome.failure? : Outcome → Option String
  | .settings (.error e) => some e.message
  | _ => none

namespace Session

variable {β : Type}

def current (s : Session β) : WorkerId :=
  s.scopes.headD s.thread

def enter (w : WorkerId) (s : Session β) : Session β :=
  { s with scopes := w :: s.scopes }

def leave (s : Session β) : Session β :=
  { s with scopes := s.scopes.tail }

def unit? (s : Session β) (name : String) : Option WorkerId :=
  (s.units.find? fun u => u.1 == name).map Prod.snd

def closeUnit (s : Session β) (name : String) : Session β :=
  { s with units := s.units.filter fun u => !(u.1 == name) }

def openUnit (s : Session β) (name : String) (w : WorkerId) : Session β :=
  { s.closeUnit name with units := (name, w) :: (s.closeUnit name).units }

/-- An open unit as diagnostics show it, with its worker by the given name. -/
def inspectUnit (worker : String) : String :=
  "ScopeGuard \x7b worker: WorkerId(" ++ worker ++ "), finished: false \x7d"

variable [Backend β]

/-- A course on the session's service, for its value and the patience left; it has
neither if it was dropped. -/
def run (c : Course α) (patience : Option Duration) :
    Strand (Session β) (Option (α × Option Duration)) :=
  (Service.play c patience).on service fun r s => { s with service := r }

/-- A course on the session's service, for its outcome. -/
def runFor (c : Course α) (patience : Option Duration) (outcome : α → Outcome) :
    Strand (Session β) (Option Outcome) := do
  return (← run c patience).map fun a => outcome a.1

def endUnit (name : String) (patience : Option Duration) : Strand (Session β) (Option Outcome) := do
  match ← .act fun s => (s.unit? name, s.closeUnit name) with
  | none => return some .noUnit
  | some w => runFor (Course.finish w) patience fun _ => .ended

/-- Begins a unit under a name, then drops the unit that had the name before. -/
def beginUnit (w : WorkerId) (name : String) (patience : Option Duration) :
    Strand (Session β) (Option Outcome) := do
  match ← run (Course.start w) patience with
  | none => return none
  | some ((), patience) =>
    match ← .act fun s => (s.unit? name, s.openUnit name w) with
    | none => return some (.begun w)
    | some v => runFor (Course.finish v) patience fun _ => .begun w

/-- Starts a unit of work, however long that takes, and says whether it came to its end. -/
def startUnit (w : WorkerId) : Strand (Session β) Bool :=
  Option.isSome <$> run (Course.start w) none

def finishUnit (w : WorkerId) : Strand (Session β) Unit :=
  (fun _ => ()) <$> run (Course.finish w) none

/-- A course for a worker, or for the current one where none is given. -/
def runAs (w : Option WorkerId) (c : WorkerId → Course α) (patience : Option Duration)
    (outcome : α → Outcome) : Strand (Session β) (Option Outcome) := do
  runFor (c (w.getD (← .look current))) patience outcome

/-- Carries an operation out; it has no outcome if answers did not come in time. -/
def perform (patience : Option Duration) : Operation → Strand (Session β) (Option Outcome)
  | .get w bypass => runAs w (fun w => Course.get w bypass) patience .settings
  | .fetch => runFor Course.fetch patience .settings
  | .write w u now => runAs w (fun w => Course.write w u now) patience .settings
  | .start w => runFor (Course.start w) patience fun _ => .started
  | .succeed w | .fail w => runFor (Course.finish w) patience fun _ => .ended
  | .begin w name => beginUnit w name patience
  | .succeedUnit name | .failUnit name | .dropUnit name => endUnit name patience

end Session
end ScopedSettings
