/-
Scenarios: programs of tasks over one service, for trying out what the service
does.

A task is an operation of a session, a look at the service or at a part of it,
a request, a maintenance command, or a change to the store and the files from
outside. The service, its observers and the file tree around it are a bench
(`Bench`); what a task finds there is a `Finding`.
-/
import ScopedSettings.CommandLine.Execution
import ScopedSettings.Http.Api
import ScopedSettings.Service.Session

namespace ScopedSettings.Scenario

/-- A task. -/
inductive Task
  | use (o : Operation)
  /-- An open unit of work as diagnostics show it. -/
  | inspectUnit (unit : String)
  | current
  | contains (w : WorkerId)
  | lookUp (w : WorkerId)
  | keep (w : WorkerId) (s : Settings)
  | forget (w : WorkerId)
  | stats
  /-- Switches a store in memory on or off. -/
  | switch (on : Bool)
  /-- Puts a record into a store in memory. -/
  | replace (s : Settings)
  | addListener (l : Listener)
  | countListeners
  | takeNotes
  | subscribe (observer : String)
  | receive (observer : String)
  | inspectStore
  | inspectCache
  | inspectService
  | storeName
  | handle (r : Http.Request) (now : Instant)
  | showSettings (json : Bool)
  | changeSettings (u : Update) (now : Instant)
  | listen (a : Http.Address)
  | putFile (path : String) (bytes : ByteArray)
  | makeDirectories (path : String)
  | showFile (path : String)
  | removeFile (path : String)
  | listFiles (path : String)

/-- What a task finds. -/
inductive Finding
  | outcome (o : Outcome)
  | done
  | unit (w : WorkerId)
  | worker (w : WorkerId) (inScope : Bool)
  | truth (b : Bool)
  | count (n : Nat)
  | entry (s : Option Settings)
  | text (s : String)
  | notes (ns : List Note)
  | received (r : Received)
  | response (r : Http.Response)
  | printed (answer : Except CommandLine.Failure String)
  | refused (f : CommandLine.Failure)
  | file (answer : Except Files.Failure ByteArray)
  | names (answer : Except Files.Failure (List String))

def Finding.failure? : Finding → Option String
  | .outcome o => o.failure?
  | .printed (.error f) => some f.chain
  | .refused f => some f.context
  | _ => none

/-- A service on trial, with those who observe its writes. -/
structure Bench where
  session : Session RecordStore
  observers : List (String × Receiver) := []

/-- What is seen of a bench after a task. -/
structure Glance where
  stats : CacheStats
  /-- How often the record has been asked for, where the store counts that. -/
  loads : Option Nat

namespace Bench

def service (b : Bench) : Service RecordStore :=
  b.session.service

def mapService (f : Service RecordStore → Service RecordStore) (b : Bench) : Bench :=
  { b with session := { b.session with service := f b.session.service } }

def mapStore (f : RecordStore → RecordStore) (b : Bench) : Bench :=
  b.mapService fun r => { r with backend := f r.backend }

def tree (b : Bench) : Files.Tree :=
  b.service.backend.tree

def withTree (b : Bench) (tree : Files.Tree) : Bench :=
  b.mapStore fun r => { r with tree }

def glance (b : Bench) : Glance where
  stats := b.service.cache.stats
  loads :=
    match b.service.backend.keeper with
    | .memory m => some m.loads
    | .scripted s => some s.loads
    | .file _ => none

def patience : Duration :=
  .ofMillis 3600000

def inSession (p : Strand (Session RecordStore) α) : Strand Bench α :=
  p.on session fun session b => { b with session }

def run (c : Course α) (finding : α → Finding) : Strand Bench (Option Finding) := do
  return (← inSession (Session.run c (some patience))).map fun a => finding a.1

def look (f : Bench → Finding) : Strand Bench (Option Finding) :=
  .look fun b => some (f b)

/-- A change, and nothing found but that it is made. -/
def change (f : Bench → Bench) : Strand Bench (Option Finding) := do
  .modify f
  return some .done

def observer? (b : Bench) (name : String) : Option Receiver :=
  (b.observers.find? fun o => o.1 == name).map Prod.snd

/-- The bench with an observer, in place of the one that had its name. -/
def withObserver (b : Bench) (name : String) (r : Receiver) : Bench :=
  { b with observers := (name, r) :: b.observers.filter fun o => !(o.1 == name) }

def receive (b : Bench) (name : String) : Finding × Bench :=
  match b.observer? name with
  | none => (.done, b)
  | some r =>
    let (received, r) := b.service.channel.receive r
    (.received received, b.withObserver name r)

/-- Carries a task out; it finds nothing if answers did not come in time. -/
def perform : Task → Strand Bench (Option Finding)
  | .use o => do
    return (← inSession (Session.perform (some patience) o)).map .outcome
  | .inspectUnit name => look fun b => ((b.session.unit? name).map .unit).getD (.outcome .noUnit)
  | .current => look fun b => .worker b.session.current !b.session.scopes.isEmpty
  | .contains w => look fun b => .truth (b.service.cache.contains w)
  | .lookUp w => run (Course.lookUp w) .entry
  | .keep w s => change (mapService fun r => { r with cache := r.cache.put w s })
  | .forget w =>
    .act fun b =>
      let (removed, cache) := b.service.cache.clear w
      (some (.truth removed), b.mapService fun r => { r with cache })
  | .stats => look fun b => .text b.service.cache.stats.text
  | .switch on => do
    .modify (mapStore (·.switch on))
    return some (.truth on)
  | .replace s => change (mapStore (·.mapMemory fun m => { m with record := some s }))
  | .addListener l => do
    .modify (mapService (·.addListener l))
    look fun b => .count b.service.listeners.length
  | .countListeners => look fun b => .count b.service.listeners.length
  | .takeNotes => do
    let notes ← look fun b => .notes b.service.notes
    .modify (mapService fun r => { r with notes := [] })
    return notes
  | .subscribe name => change fun b => b.withObserver name b.service.channel.subscribe
  | .receive name =>
    .act fun b =>
      let (finding, b) := b.receive name
      (some finding, b)
  | .inspectStore => look fun b => .text b.service.inspectStore
  | .inspectCache => look fun b => .text b.service.cache.inspect
  | .inspectService => look fun b => .text b.service.inspect
  | .storeName => look fun b => .text (Backend.name b.service.backend)
  | .handle r now => run (Http.handle r now) .response
  | .showSettings json => run (CommandLine.showSettings json) .printed
  | .changeSettings u now => do
    let w ← .look fun b => b.session.current
    run (CommandLine.changeSettings w u now) .printed
  | .listen a => .done (a.refusal?.map fun r => .refused (CommandLine.bindFailure a r))
  | .putFile path bytes => change fun b => b.withTree (b.tree.putFile path bytes).2
  | .makeDirectories path => change fun b => b.withTree (b.tree.makeDirectories path).2
  | .showFile path => look fun b => .file (b.tree.readBytes path)
  | .removeFile path => change fun b => b.withTree (b.tree.remove path).2
  | .listFiles path => look fun b => .names (b.tree.list path)

end Bench
end ScopedSettings.Scenario
