/-
Runs of a session, and the chronicle of what happens in them.

A run is made of moves, one after another: operations, scopes entered and
left, listeners registered, and changes to the store from outside. Work in
several lanes is such a run too, for a lane whose turn it is has its scopes
entered and leaves them when it gives the turn away. The machine of a session
carries programs of nested blocks and lanes out; with `Machine.undivided`
lanes take turns operation by operation, and `Session.recorder` keeps the moves
that are made. What a run did to the entries and to the record is its chronicle
(`Session.chronicle`), a list of events in the order they happened.
-/
import ScopedSettings.Program
import ScopedSettings.Service.Session

namespace ScopedSettings

/-- What can happen to a session; `ξ` are the changes to its store from outside. -/
inductive Move (ξ : Type)
  /-- An operation, by a caller who waits so long for its outcome. -/
  | use (patience : Option Duration) (o : Operation)
  | enter (w : WorkerId)
  | leave
  | register (l : Listener)
  | outside (x : ξ)

/-- Where the record of a read came from. -/
inductive Source
  | entry
  | store
  /-- The store was not ready, and the defaults stand in. -/
  | defaults
  deriving DecidableEq

/-- What happened in a run to a worker's entry or to the record. -/
inductive Event
  /-- A unit of the worker started, and its fetch was answered with a record or not. -/
  | started (w : WorkerId) (fetched : Option Settings)
  /-- A unit of the worker ended, in whatever way. -/
  | ended (w : WorkerId)
  | read (w : WorkerId) (bypass : Bool) (source : Source) (answer : Except SettingsError Settings)
  | written (w : WorkerId) (u : Update) (now : Instant) (answer : Except SettingsError Settings)

namespace Session

variable {β ξ τ : Type}

/-- A session on a service, before anything has happened in it. -/
def opened (r : Service β) (thread : WorkerId) : Session β :=
  { service := r, thread }

/-- The session with its store changed from outside. -/
def disturb (change : ξ → β → β) (x : ξ) (s : Session β) : Session β :=
  { s with service := { s.service with backend := change x s.service.backend } }

def register (l : Listener) (s : Session β) : Session β :=
  { s with service := s.service.addListener l }

/-- The events of the unit of a name being closed. -/
def closing (s : Session β) (name : String) : List Event :=
  ((s.unit? name).map Event.ended).toList

variable [Backend β]

def move (change : ξ → β → β) : Move ξ → Strand (Session β) (Option Outcome)
  | .use patience o => perform patience o
  | .enter w => .act fun s => (none, s.enter w)
  | .leave => .act fun s => (none, s.leave)
  | .register l => .act fun s => (none, s.register l)
  | .outside x => .act fun s => (none, s.disturb change x)

def afterMove (change : ξ → β → β) (s : Session β) (m : Move ξ) : Session β :=
  ((move change m).alone s).2

/-- The session after moves, one after another. -/
def after (change : ξ → β → β) (s : Session β) (ms : List (Move ξ)) : Session β :=
  ms.foldl (afterMove change) s

/-! ## Chronicles -/

def source (s : Session β) (w : WorkerId) (bypass : Bool) (patience : Option Duration) : Source :=
  if !bypass && s.service.cache.contains w then .entry
  else
    match (s.service.perform Course.fetch patience).1 with
    | some (.error e, _) => if e.isNotReady then .defaults else .store
    | _ => .store

/-- The record a unit that starts now is given, if any. -/
def fetched? (s : Session β) (patience : Option Duration) : Option Settings :=
  (s.service.perform Course.fetch patience).1.bind fun x => x.1.toOption

/-- What happens when an operation is carried out now. An operation that is dropped
before it has an outcome has neither read nor written. -/
def eventsOf (s : Session β) (patience : Option Duration) (o : Operation) : List Event :=
  match o, ((perform patience o).alone s).1 with
  | .get w bypass, some (.settings answer) =>
    let w := w.getD s.current
    [.read w bypass (s.source w bypass patience) answer]
  | .write w u now, some (.settings answer) => [.written (w.getD s.current) u now answer]
  | .start w, _ => [.started w (s.fetched? patience)]
  | .succeed w, _ | .fail w, _ => [.ended w]
  | .begin w name, some _ => .started w (s.fetched? patience) :: s.closing name
  | .begin w _, none => [.started w none]
  | .succeedUnit name, _ | .failUnit name, _ | .dropUnit name, _ => s.closing name
  | _, _ => []

def events (s : Session β) : Move ξ → List Event
  | .use patience o => s.eventsOf patience o
  | .enter _ | .leave | .register _ | .outside _ => []

/-- What happens in a run, in order. -/
def chronicle (change : ξ → β → β) (s : Session β) : List (Move ξ) → List Event
  | [] => []
  | m :: ms => s.events m ++ (s.afterMove change m).chronicle change ms

end Session

/-! ## Programs -/

/-- The machine each of whose operations, starts and ends takes one turn, however long
it has to wait. -/
def Machine.undivided (m : Machine ω ρ σ τ) : Machine ω ρ σ τ :=
  { m with
    perform := fun o => .act (m.perform o).alone
    start := fun w => .act (m.start w).alone
    finish := fun w => .act (m.finish w).alone }

namespace Session

variable {β ξ τ : Type} [Backend β]

/-- The machine of a session, on which programs of moves run. -/
def machine (change : ξ → β → β) (observe : Session β → τ) :
    Machine (Move ξ) (Option Outcome) (Session β) τ where
  perform := move change
  failure? outcome := outcome.bind Outcome.failure?
  observe := observe
  enter := enter
  leave := leave
  start := startUnit
  finish := finishUnit

/-- Makes a move within a turn, and keeps it. -/
def record (change : ξ → β → β) (m : Move ξ) :
    Strand (Session β × List (Move ξ)) (Option Outcome) :=
  .act fun s => (((move change m).alone s.1).1, s.1.afterMove change m, s.2 ++ [m])

/-- The undivided machine of a session, with the moves it has made. -/
def recorder (change : ξ → β → β) (observe : Session β → τ) :
    Machine (Move ξ) (Option Outcome) (Session β × List (Move ξ)) τ where
  perform := record change
  failure? outcome := outcome.bind Outcome.failure?
  observe s := observe s.1
  enter w s := (s.1.enter w, s.2 ++ [.enter w])
  leave s := (s.1.leave, s.2 ++ [.leave])
  start w := Option.isSome <$> record change (.use none (.start w))
  finish w := (fun _ => ()) <$> record change (.use none (.succeed w))

def movesOf (change : ξ → β → β) (steps : Steps (Move ξ) ν) (tries : Bool) (s : Session β) :
    List (Move ξ) :=
  ((steps.perform (recorder change fun _ => ()) tries).alone (s, [])).2.2

/-- The runs of a session, with their moves and the session afterwards: moves made one
after another, and programs whose lanes take turns operation by operation. -/
inductive Runs (change : ξ → β → β) (s : Session β) : List (Move ξ) → Session β → Prop
  | moves (ms : List (Move ξ)) : Runs change s ms (s.after change ms)
  | program {ν : Type} (steps : Steps (Move ξ) ν) (tries : Bool) :
    Runs change s (movesOf change steps tries s)
      ((steps.perform (machine change fun _ => ()).undivided tries).alone s).2

end Session
end ScopedSettings
