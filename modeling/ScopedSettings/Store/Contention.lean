/-
Callers of file stores that keep one record.

All stores are on one path, and each has a lock of its own: commits through one store
wait for each other, commits through different ones do not. A turn carries the next act
of one caller out, or drops the caller between two of its acts, with the lock if it holds
one. Nothing is said about whose turn comes next.
-/
import ScopedSettings.Store.File

namespace ScopedSettings

open Files

/-- What a caller asks of a file store. -/
inductive FileTask
  | load
  | commit (u : Update) (now : Instant)

def FileTask.procedure (path : String) :
    FileTask → FileProcedure (Except SettingsError Settings)
  | .load => FileStore.loadProcedure path
  | .commit u now => FileStore.commitProcedure path u now

/-- A caller of one of the stores, which are known by number. -/
structure FileCaller where
  store : Nat
  task : FileTask

inductive FileTurn
  /-- The caller's next act is carried out, unless it has to wait for the lock. -/
  | act (caller : Nat)
  /-- The caller is dropped before its next act. -/
  | drop (caller : Nat)

/-- Callers on one tree; of each what is left of its procedure, and nothing once it has been
dropped. -/
structure Contention where
  tree : Tree
  callers : List FileCaller
  procedures : List (Option (FileProcedure (Except SettingsError Settings)))
  /-- The caller that holds the lock of a store. -/
  holder : Nat → Option Nat := fun _ => none

namespace Contention

/-- Callers of stores on a path, before their first act. -/
def ofCallers (path : String) (callers : List FileCaller) (tree : Tree) : Contention where
  tree
  callers
  procedures := callers.map fun caller => some (caller.task.procedure path)

/-- Callers of one store. -/
def ofTasks (path : String) (tasks : List FileTask) (tree : Tree) : Contention :=
  ofCallers path (tasks.map fun task => { store := 0, task }) tree

/-- What is left of a caller's procedure. -/
def procedure? (c : Contention) (i : Nat) :
    Option (FileProcedure (Except SettingsError Settings)) :=
  c.procedures[i]?.join

/-- The act that a caller's turn carries out, if the caller has one. -/
def act? (c : Contention) (i : Nat) : Option FileAct :=
  match c.procedure? i with
  | some (.step a _) => some a
  | some (.done _) | none => none

/-- What a caller has come to, if it has ended. -/
def answer? (c : Contention) (i : Nat) : Option (Except SettingsError Settings) :=
  match c.procedure? i with
  | some (.done answer) => some answer
  | some (.step _ _) | none => none

/-- What a caller has come for. -/
def task? (c : Contention) (i : Nat) : Option FileTask :=
  c.callers[i]?.map FileCaller.task

/-- The number of the store that a caller calls. -/
def storeOf (c : Contention) (i : Nat) : Nat :=
  (c.callers[i]?.map FileCaller.store).getD 0

/-- Has a caller to wait for the lock of its store? -/
def waits (c : Contention) (i : Nat) : FileAct → Bool
  | .acquire => (c.holder (c.storeOf i)).isSome
  | _ => false

/-- Who holds which lock, if the lock of a store is taken or given back. -/
def lock (c : Contention) (store : Nat) (caller : Option Nat) : Nat → Option Nat :=
  fun k => if k = store then caller else c.holder k

/-- Who holds which lock after an act. -/
def holderAfter (c : Contention) (i : Nat) : FileAct → Nat → Option Nat
  | .acquire => c.lock (c.storeOf i) (some i)
  | .release => c.lock (c.storeOf i) none
  | _ => c.holder

/-- Who holds which lock once a caller has been dropped. -/
def holderWithout (c : Contention) (i : Nat) : Nat → Option Nat :=
  fun k => if c.holder k = some i then none else c.holder k

def turn (c : Contention) : FileTurn → Contention
  | .act i =>
    match c.procedure? i with
    | some (.step a next) =>
      if c.waits i a then c
      else
        let (answer, tree) := a.carryOut c.tree
        { c with
          tree
          procedures := c.procedures.set i (some (next answer))
          holder := c.holderAfter i a }
    | some (.done _) | none => c
  | .drop i =>
    match c.procedure? i with
    | some (.step _ _) =>
      { c with procedures := c.procedures.set i none, holder := c.holderWithout i }
    | some (.done _) | none => c

/-- The callers after turns, one after another. -/
def after (c : Contention) (turns : List FileTurn) : Contention :=
  turns.foldl turn c

/-! ## What turns do to the record -/

/-- The caller that renames its file over the record at a turn, if the turn does that. -/
def renamer? (c : Contention) : FileTurn → Option Nat
  | .act i =>
    match c.act? i with
    | some (.rename source target) =>
      match c.tree.rename source target with
      | (.ok (), _) => some i
      | (.error _, _) => none
    | _ => none
  | .drop _ => none

/-- The callers that rename their files over the record, in the order in which they do. -/
def renamers (c : Contention) : List FileTurn → List Nat
  | [] => []
  | t :: turns => (c.renamer? t).toList ++ (c.turn t).renamers turns

/-- Has a caller opened its file, and not yet renamed or removed it? -/
def isMidway (c : Contention) (i : Nat) : Bool :=
  match c.act? i with
  | some (.write _ _) | some (.sync _) | some (.rename _ _) | some (.remove _) => true
  | _ => false

end Contention
end ScopedSettings
