/-
A record store of any kind, beside the file tree it shares with everything
else that reads or writes files.
-/
import ScopedSettings.Config.Basic
import ScopedSettings.Service.Basic
import ScopedSettings.Store.File
import ScopedSettings.Store.Memory
import ScopedSettings.Store.Scripted

namespace ScopedSettings

/-- The kinds of record store. -/
inductive RecordKeeper
  | memory (m : MemoryStore)
  | scripted (s : ScriptedStore)
  | file (path : String)

/-- A record store and the file tree around it. -/
structure RecordStore where
  keeper : RecordKeeper
  tree : Files.Tree

namespace RecordStore

/-- The store's name in messages. -/
def name (r : RecordStore) : String :=
  match r.keeper with
  | .memory m => Backend.name m
  | .scripted s => Backend.name s
  | .file path => Backend.name (FileStore.mk path r.tree)

def load (r : RecordStore) : RecordStore × Reply :=
  match r.keeper with
  | .memory m =>
    let (m, reply) := Backend.load m
    ({ r with keeper := .memory m }, reply)
  | .scripted s =>
    let (s, reply) := Backend.load s
    ({ r with keeper := .scripted s }, reply)
  | .file path =>
    let (f, reply) := Backend.load (FileStore.mk path r.tree)
    ({ r with tree := f.tree }, reply)

def commit (r : RecordStore) (u : Update) (now : Instant) : RecordStore × Reply :=
  match r.keeper with
  | .memory m =>
    let (m, reply) := Backend.commit m u now
    ({ r with keeper := .memory m }, reply)
  | .scripted s =>
    let (s, reply) := Backend.commit s u now
    ({ r with keeper := .scripted s }, reply)
  | .file path =>
    let (f, reply) := Backend.commit (FileStore.mk path r.tree) u now
    ({ r with tree := f.tree }, reply)

instance : Backend RecordStore where
  name := name
  load := load
  commit := commit

/-- The store with its record in memory changed, if that is where the record is. -/
def mapMemory (f : MemoryStore → MemoryStore) (r : RecordStore) : RecordStore :=
  match r.keeper with
  | .memory m => { r with keeper := .memory (f m) }
  | _ => r

/-- The store switched on or off, if its record is in memory. -/
def switch (on : Bool) (r : RecordStore) : RecordStore :=
  r.mapMemory fun m => { m with available := on }

/-- The store a configuration names, with nothing in memory. -/
def ofMedium (medium : Medium) (tree : Files.Tree) : RecordStore :=
  match medium with
  | .memory => { keeper := .memory {}, tree }
  | .file path => { keeper := .file path, tree }

end RecordStore

def Service.ofConfig (config : Config) (tree : Files.Tree) :
    Except SettingsError (Service RecordStore) :=
  Service.ofBackend (.ofMedium config.medium tree) config

end ScopedSettings
