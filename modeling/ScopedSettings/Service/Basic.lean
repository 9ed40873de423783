/-
The settings service: a backend, the scope cache in front of it, and those who
are told of writes.

Everything the service does is a course of single acts (`Act`), carried out
one at a time. An act may take time, and one that asks the backend may never
be answered. Each step of a course names the workers whose units of work it
holds open: a course that is dropped at that step abandons those units, and
abandoning a unit clears its worker's entry.
-/
import ScopedSettings.Cache.Basic
import ScopedSettings.Config.Basic
import ScopedSettings.Procedure
import ScopedSettings.Store.Backend
import ScopedSettings.Store.Channel
import ScopedSettings.Strand

namespace ScopedSettings

/-- Who is told of a write before it returns. -/
inductive Listener
  /-- Clears the writer's entry. -/
  | invalidation
  /-- Keeps a note of every event. -/
  | recorder (name : String)
  /-- Keeps a note of every event, and registers a recorder for the events after it. -/
  | growing (name : String)
  deriving DecidableEq

/-- A recorder's note: the event, and whether its writer had an entry at that moment. -/
structure Note where
  listener : String
  cached : Bool
  event : WriteEvent
  deriving DecidableEq

/-- The components of the settings service. -/
structure Service (β : Type) where
  backend : β
  fetchTimeout : Option Duration := none
  listeners : List Listener := []
  notes : List Note := []
  channel : Channel := .ofCapacity 1
  cache : ScopeCache Settings := .empty
  /-- The worker identifier to be handed out next. -/
  nextWorker : WorkerId := ⟨1⟩

/-! ## Acts -/

/-- What the service does in one step. -/
inductive Act
  /-- Hands out a worker identifier. -/
  | enroll
  /-- Looks a worker's entry up, counting a hit or a miss. -/
  | lookUp (w : WorkerId)
  /-- Makes a record the worker's entry. -/
  | keep (w : WorkerId) (s : Settings)
  /-- Removes the worker's entry. -/
  | forget (w : WorkerId)
  /-- Reads the cache's counters. -/
  | stats
  /-- Asks the backend for the record, for as long as a fetch may take. -/
  | fetch
  /-- Has the backend apply an update. -/
  | commit (u : Update) (now : Instant)
  /-- Tells the listeners of a write. -/
  | notify (e : WriteEvent)
  /-- Sends a write to the observers. -/
  | announce (e : WriteEvent)

abbrev Act.Answer : Act → Type
  | .enroll => WorkerId
  | .lookUp _ => Option Settings
  | .keep _ _ => Unit
  | .forget _ => Bool
  | .stats => CacheStats
  | .fetch => Except SettingsError Settings
  | .commit _ _ => Except SettingsError Settings
  | .notify _ => Unit
  | .announce _ => Unit

/-- A step of a course: the act, and the workers whose units it holds open. -/
structure Call where
  act : Act
  held : List WorkerId := []

abbrev Call.Answer (c : Call) : Type :=
  c.act.Answer

abbrev Course := Procedure Call.Answer

namespace Course

/-- The course of one act, which holds no unit open. -/
def act (a : Act) : Course a.Answer :=
  Procedure.act (⟨a, []⟩ : Call)

/-- The course with the unit of a worker held open at each of its steps. -/
def holding (w : WorkerId) : Course α → Course α
  | .done a => .done a
  | .step ⟨a, held⟩ next => .step ⟨a, w :: held⟩ fun x => holding w (next x)

end Course

namespace Service

variable {β : Type}

/-- The service after a listener has been told of an event. -/
def tell (e : WriteEvent) (r : Service β) : Listener → Service β
  | .invalidation => { r with cache := (r.cache.clear e.writer).2 }
  | .recorder name => { r with notes := r.notes ++ [⟨name, r.cache.contains e.writer, e⟩] }
  | .growing name =>
    { r with
      notes := r.notes ++ [⟨name, r.cache.contains e.writer, e⟩]
      listeners := r.listeners ++ [.recorder (name ++ "+")] }

/-- The service after the listeners it had have been told of an event, in the
order of their registration. -/
def notify (r : Service β) (e : WriteEvent) : Service β :=
  r.listeners.foldl (tell e) r

def addListener (r : Service β) (l : Listener) : Service β :=
  { r with listeners := r.listeners ++ [l] }

/-- The service after units of work have been abandoned. -/
def abandon (r : Service β) (held : List WorkerId) : Service β :=
  { r with cache := held.foldl (fun c w => (c.clear w).2) r.cache }

/-- The error of a fetch that took too long. -/
def slow (name : String) (timeout : Duration) : SettingsError :=
  .storeUnavailable
    (name ++ " backend did not answer within " ++ toString timeout.millis ++ "ms")

/-- A time of waiting, and the answer that ended it; `none` if none ever comes. -/
abbrev Awaited (α : Type) := Option (Duration × α)

/-- A backend's reply as its caller waits for it. -/
def await : Reply → Awaited (Except SettingsError Settings)
  | .never => none
  | .after delay answer => some (delay, answer)

/-- A backend's reply as a fetch waits for it, no longer than its timeout. -/
def awaitFetch (name : String) (timeout : Option Duration) (reply : Reply) :
    Awaited (Except SettingsError Settings) :=
  match timeout, reply with
  | none, reply => await reply
  | some t, .never => some (t, .error (slow name t))
  | some t, .after delay answer =>
    if t.nanos < delay.nanos then some (t, .error (slow name t))
    else some (delay, answer)

/-- An answer that takes no time. -/
def atOnce (a : α) : Awaited α :=
  some (⟨0⟩, a)

variable [Backend β]

/-- An act carried out: what it answers after how long, and the service afterwards. -/
def carryOut (r : Service β) : (a : Act) → Awaited a.Answer × Service β
  | .enroll => (atOnce r.nextWorker, { r with nextWorker := r.nextWorker.next })
  | .lookUp w =>
    let (found, cache) := r.cache.get w
    (atOnce found, { r with cache })
  | .keep w s => (atOnce (), { r with cache := r.cache.put w s })
  | .forget w =>
    let (removed, cache) := r.cache.clear w
    (atOnce removed, { r with cache })
  | .stats => (atOnce r.cache.stats, r)
  | .fetch =>
    let (backend, reply) := Backend.load r.backend
    (awaitFetch (Backend.name r.backend) r.fetchTimeout reply, { r with backend })
  | .commit u now =>
    let (backend, reply) := Backend.commit r.backend u now
    (await reply, { r with backend })
  | .notify e => (atOnce (), r.notify e)
  | .announce e => (atOnce (), { r with channel := r.channel.send e })

/-- The patience left after waiting; `none` where it has run out. Without a limit
it never does. -/
def spend (patience : Option Duration) (waited : Duration) : Option (Option Duration) :=
  match patience with
  | none => some none
  | some p => if waited.nanos ≤ p.nanos then some (some ⟨p.nanos - waited.nanos⟩) else none

/-- Runs a course without interruption, for its value and the patience left. It is
dropped, and has neither, where an answer does not come within the patience given. -/
def perform : Course α → Option Duration → Service β → Option (α × Option Duration) × Service β
  | .done a, patience, r => (some (a, patience), r)
  | .step c next, patience, r =>
    match r.carryOut c.act with
    | (none, r) => (none, r.abandon c.held)
    | (some (waited, x), r) =>
      match spend patience waited with
      | some patience => perform (next x) patience r
      | none => (none, r.abandon c.held)

/-- One course after another is performed as the two are in turn; the second is not
begun if the first was dropped. -/
theorem perform_bind (c : Course α) (f : α → Course γ) (patience : Option Duration)
    (r : Service β) :
    perform (c >>= f) patience r =
      match perform c patience r with
      | (some (a, patience), r) => perform (f a) patience r
      | (none, r) => (none, r) := by
  induction c generalizing patience r with
  | done a => rfl
  | step c next ih =>
    simp only [Procedure.step_bind, perform]
    split
    · rfl
    · split
      · exact ih _ _ _
      · rfl

/-- What is left of a course that is dropped at a call, once its patience has run out:
the units it held open are abandoned. -/
def drop (c : Call) (patience : Option Duration) : Strand (Service β) (Option α) :=
  .hold (patience.getD ⟨0⟩) <| .act fun r => (none, r.abandon c.held)

/-- A course among other work, for its value and the patience left, as in `perform`.
Others have their turns while it waits. -/
def play : Course α → Option Duration → Strand (Service β) (Option (α × Option Duration))
  | .done a, patience => .done (some (a, patience))
  | .step c next, patience =>
    .read fun r =>
      let (answer, r) := r.carryOut c.act
      .write r <|
        match answer with
        | none => drop c patience
        | some (waited, x) =>
          match spend patience waited with
          | some left => .hold waited (play (next x) left)
          | none => drop c patience

/-- By itself, a course is performed without interruption. -/
theorem play_alone (c : Course α) (patience : Option Duration) (r : Service β) :
    (play c patience).alone r = perform c patience r := by
  induction c generalizing patience r with
  | done a => rfl
  | step c next ih =>
    simp only [play, perform, Strand.alone]
    generalize r.carryOut c.act = answered
    obtain ⟨answer, r⟩ := answered
    match answer with
    | none => simp [drop, Strand.act, Strand.alone]
    | some (waited, x) =>
      dsimp only
      split
      · simp only [Strand.hold_alone, ih]
      · simp [drop, Strand.act, Strand.alone]

/-- A service over a backend: the invalidation listener is registered before anything
can write. -/
def ofBackend (backend : β) (config : Config) : Except SettingsError (Service β) := do
  config.validate
  return {
    backend
    fetchTimeout := config.fetchTimeout
    channel := .ofCapacity config.eventCapacity
    listeners := [.invalidation] }

/-- The store as diagnostics show it. -/
def inspectStore (r : Service β) : String :=
  "SettingsStore \x7b backend: " ++ Text.quoted (Backend.name r.backend) ++ ", listeners: " ++
    toString r.listeners.length ++ ", fetch_timeout: " ++ Config.inspectTimeout r.fetchTimeout ++
    " \x7d"

/-- The service as diagnostics show it. -/
def inspect (r : Service β) : String :=
  "SettingsRuntime \x7b store: " ++ r.inspectStore ++ ", cache: " ++ r.cache.inspect ++ " \x7d"

end Service
end ScopedSettings
