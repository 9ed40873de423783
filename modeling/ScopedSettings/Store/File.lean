/-
The record in a file.

A commit reads the record, writes the next one to a temporary sibling, flushes
that and renames it over the record, so that a reader finds the old text or the
new one; when any of this fails the sibling is removed. The last thing is to
flush the directory, so that the rename is not lost: where this fails the commit
does, though the record has been replaced. Commits through one store take turns:
each holds the store's lock from its first act to its last. Stores on one file
have a lock each, and the same sibling. Both operations are procedures over
single acts: what others do between two of them is left open.
-/
import ScopedSettings.Files.Tree
import ScopedSettings.Procedure
import ScopedSettings.Settings.Json
import ScopedSettings.Store.Backend

namespace ScopedSettings

open Files

/-- What a file store asks of its lock and of the file system. -/
inductive FileAct
  /-- Waits until no other commit through the store is under way. -/
  | acquire
  /-- Lets the next commit through. -/
  | release
  | readText (path : String)
  | makeDirectories (path : String)
  | create (path : String)
  | write (id : FileId) (bytes : ByteArray)
  | sync (id : FileId)
  | rename (source target : String)
  | remove (path : String)
  | syncDirectory (path : String)

abbrev FileAct.Answer : FileAct → Type
  | .acquire => Unit
  | .release => Unit
  | .readText _ => Except Failure String
  | .makeDirectories _ => Except Failure Unit
  | .create _ => Except Failure FileId
  | .write _ _ => Except Failure Unit
  | .sync _ => Except Failure Unit
  | .rename _ _ => Except Failure Unit
  | .remove _ => Except Failure Unit
  | .syncDirectory _ => Except Failure Unit

/-- An act carried out on a tree, by a commit that has no other to wait for. -/
def FileAct.carryOut (t : Tree) : (a : FileAct) → a.Answer × Tree
  | .acquire => ((), t)
  | .release => ((), t)
  | .readText path => (t.readText path, t)
  | .makeDirectories path => t.makeDirectories path
  | .create path => t.create path
  | .write id bytes => t.write id bytes
  | .sync id => (t.sync id, t)
  | .rename source target => t.rename source target
  | .remove path => t.remove path
  | .syncDirectory path => (t.syncDirectory path, t)

abbrev FileProcedure := Procedure FileAct.Answer

namespace FileProcedure

def acquire : FileProcedure Unit :=
  Procedure.act FileAct.acquire

def release : FileProcedure Unit :=
  Procedure.act FileAct.release

def readText (path : String) : FileProcedure (Except Failure String) :=
  Procedure.act (FileAct.readText path)

def makeDirectories (path : String) : FileProcedure (Except Failure Unit) :=
  Procedure.act (FileAct.makeDirectories path)

def create (path : String) : FileProcedure (Except Failure FileId) :=
  Procedure.act (FileAct.create path)

def write (id : FileId) (bytes : ByteArray) : FileProcedure (Except Failure Unit) :=
  Procedure.act (FileAct.write id bytes)

def sync (id : FileId) : FileProcedure (Except Failure Unit) :=
  Procedure.act (FileAct.sync id)

def rename (source target : String) : FileProcedure (Except Failure Unit) :=
  Procedure.act (FileAct.rename source target)

def remove (path : String) : FileProcedure (Except Failure Unit) :=
  Procedure.act (FileAct.remove path)

def syncDirectory (path : String) : FileProcedure (Except Failure Unit) :=
  Procedure.act (FileAct.syncDirectory path)

end FileProcedure

namespace FileStore

/-- What a store does with its file and can fail at. -/
inductive Action
  | read
  | makeDirectories
  | create
  | write
  | sync
  | replace
  | syncDirectory
  deriving DecidableEq

def Action.text : Action → String
  | .read => "read"
  | .makeDirectories => "create directory for"
  | .create => "create temp file for"
  | .write => "write"
  | .sync => "sync"
  | .replace => "replace"
  | .syncDirectory => "sync directory of"

/-- A failed action, as the store's callers see it. -/
def unavailable (action : Action) (path : String) (f : Failure) : SettingsError :=
  .storeUnavailable ("failed to " ++ action.text ++ " " ++ path ++ ": " ++ f.message)

def loadProcedure (path : String) : FileProcedure (Except SettingsError Settings) := do
  match ← FileProcedure.readText path with
  | .ok text => return Settings.ofText text
  | .error .notFound => return .error .recordNotFound
  | .error f => return .error (unavailable .read path f)

/-- Writes bytes to the open sibling of a path, flushes it and renames it over the path. -/
def installProcedure (path : String) (id : FileId) (bytes : ByteArray) :
    FileProcedure (Except SettingsError Unit) := do
  match ← FileProcedure.write id bytes with
  | .error f => return .error (unavailable .write path f)
  | .ok () =>
    match ← FileProcedure.sync id with
    | .error f => return .error (unavailable .sync path f)
    | .ok () =>
      match ← FileProcedure.rename (temporarySibling path) path with
      | .error f => return .error (unavailable .replace path f)
      | .ok () => return .ok ()

/-- Puts a record in place of the one at a path, by way of the temporary sibling, and
flushes the directory they are in. -/
def persistProcedure (path : String) (s : Settings) :
    FileProcedure (Except SettingsError Unit) := do
  match ← FileProcedure.makeDirectories (parent path) with
  | .error f => return .error (unavailable .makeDirectories path f)
  | .ok () =>
    match ← FileProcedure.create (temporarySibling path) with
    | .error f => return .error (unavailable .create path f)
    | .ok id =>
      match ← installProcedure path id s.prettyText.toUTF8 with
      | .error e =>
        -- whether the sibling can be removed makes no difference to the answer
        let _ ← FileProcedure.remove (temporarySibling path)
        return .error e
      | .ok () =>
        match ← FileProcedure.syncDirectory (parent path) with
        | .error f => return .error (unavailable .syncDirectory path f)
        | .ok () => return .ok ()

/-- Applies an update to the record of a path, or to the defaults while there is
none. A record that cannot be read is left alone. -/
def replaceProcedure (path : String) (u : Update) (now : Instant) :
    FileProcedure (Except SettingsError Settings) := do
  let base : Except SettingsError Settings := match ← loadProcedure path with
    | .error .recordNotFound => .ok .default
    | r => r
  match base with
  | .error e => return .error e
  | .ok base =>
    let next := u.apply base now
    match ← persistProcedure path next with
    | .error e => return .error e
    | .ok () => return .ok next

def commitProcedure (path : String) (u : Update) (now : Instant) :
    FileProcedure (Except SettingsError Settings) := do
  FileProcedure.acquire
  let answer ← replaceProcedure path u now
  FileProcedure.release
  return answer

def load (path : String) (t : Tree) : Except SettingsError Settings × Tree :=
  (loadProcedure path).runOn FileAct.carryOut t

/-- Applies an update to the record of a path in a tree. -/
def commit (path : String) (u : Update) (now : Instant) (t : Tree) :
    Except SettingsError Settings × Tree :=
  (commitProcedure path u now).runOn FileAct.carryOut t

end FileStore

/-- A record kept in a file of a tree. -/
structure FileStore where
  path : String
  tree : Tree

instance : Backend FileStore where
  name _ := "file"
  load b :=
    let (answer, tree) := FileStore.load b.path b.tree
    ({ b with tree }, .now answer)
  commit b u now :=
    let (answer, tree) := FileStore.commit b.path u now b.tree
    ({ b with tree }, .now answer)

end ScopedSettings
