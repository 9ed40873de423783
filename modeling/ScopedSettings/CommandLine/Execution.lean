/-
What the program does for its arguments, and how it leaves.
-/
import ScopedSettings.CommandLine.Invocation
import ScopedSettings.CommandLine.Maintenance
import ScopedSettings.Http.Address

namespace ScopedSettings.CommandLine

/-- What comes of the program's arguments. -/
inductive Outcome
  | refused (f : UsageFault)
  | failed (f : Failure)
  | printed (text : String)
  /-- The program listens on an address and goes on until it is stopped. -/
  | serving (a : Http.Address)
  /-- The store does not answer, and the program waits for it. -/
  | waiting

/-- How the program leaves: its exit code and what it has written. -/
structure Departure where
  code : Nat
  out : String := ""
  err : String := ""
  deriving DecidableEq, Repr

/-- The characters of a text up to the first line break, a carriage return before it
being part of the break. -/
def firstLineChars : List Char → List Char
  | [] | '\n' :: _ | '\r' :: '\n' :: _ => []
  | c :: cs => c :: firstLineChars cs

/-- The first line of a text. -/
def firstLine (s : String) : String :=
  String.ofList (firstLineChars s.toList)

/-- How the program leaves when its arguments are refused. To ask for help is no mistake. -/
def UsageFault.departure (f : UsageFault) : Departure :=
  match f with
  | .helpAsked about => { code := 0, out := about ++ "\n" }
  | f => { code := 2, err := firstLine f.message }

/-- How the program leaves, unless it stays. -/
def Outcome.departure? : Outcome → Option Departure
  | .refused f => some f.departure
  | .failed f => some { code := 1, err := f.report }
  | .printed text => some { code := 0, out := text ++ "\n" }
  | .serving _ | .waiting => none

def bindFailure (a : Http.Address) (r : Http.Address.Refusal) : Failure :=
  { context := "Failed to bind " ++ a.text, cause := r.message }

def listen (a : Http.Address) : Outcome :=
  match a.refusal? with
  | some r => .failed (bindFailure a r)
  | none => .serving a

def printing (service : Service RecordStore) (c : Course (Except Failure String)) :
    Outcome × Files.Tree :=
  match service.perform c none with
  | (some (.ok text, _), r) => (.printed text, r.backend.tree)
  | (some (.error f, _), r) => (.failed f, r.backend.tree)
  | (none, r) => (.waiting, r.backend.tree)

def Command.run (c : Command) (vs : Variables) (service : Service RecordStore) (now : Instant) :
    Outcome × Files.Tree :=
  match c with
  | .serve host port =>
    let a := Http.Address.ofVariables (Config.variablesIn service.backend.tree vs)
    (listen ⟨host.getD a.host, port.getD a.port⟩, service.backend.tree)
  | .settings (.show json) => printing service (showSettings json)
  | .settings (.change u) => printing service (changeSettings service.nextWorker u now)

/-- The record file that the program is to work on, if its arguments and the
environment name one. -/
def recordFile? (arguments : List String) (vs : Variables) (tree : Files.Tree) : Option String :=
  match Invocation.ofArguments arguments with
  | .error _ => none
  | .ok invocation =>
    match startService invocation.settingsFile vs tree with
    | .error _ => none
    | .ok service =>
      match service.backend.keeper with
      | .file path => some path
      | _ => none

def execute (arguments : List String) (vs : Variables) (tree : Files.Tree) (now : Instant) :
    Outcome × Files.Tree :=
  match Invocation.ofArguments arguments with
  | .error f => (.refused f, tree)
  | .ok invocation =>
    match startService invocation.settingsFile vs tree with
    | .error f => (.failed f, tree)
    | .ok service => invocation.command.run vs service now

end ScopedSettings.CommandLine
