/-
Files of environment variables, one assignment a line.

A value may be quoted, strongly with `'` or weakly with `"`, may hold escapes
behind a backslash, and may refer to other variables by `$NAME` or by the name
in braces; an unquoted blank ends it, and only a comment may follow. The first
line that is no assignment ends the file: what stands before it counts.
-/
import ScopedSettings.Config.Variables
import ScopedSettings.Text.Alphanumeric
import ScopedSettings.Text.Blank

namespace ScopedSettings.EnvFile

/-- What a reference to a variable has shown so far. -/
inductive Reference
  | none
  | bare
  | braced
  deriving DecidableEq

/-- How far a value has been read. -/
structure State where
  strong : Bool := false
  weak : Bool := false
  escaped : Bool := false
  /-- A blank has ended the value. -/
  ended : Bool := false
  reference : Reference := .none
  /-- The name referred to, reversed. -/
  name : List Char := []
  /-- The value so far, reversed. -/
  output : List Char := []

/-- The value with what the name refers to put in. -/
def State.resolve (s : State) (valueOf : String → String) : State :=
  let value := valueOf (String.ofList s.name.reverse)
  { s with name := [], output := value.toList.reverse ++ s.output }

def State.push (s : State) (c : Char) : State :=
  { s with output := c :: s.output }

def escape? : Char → Option Char
  | 'n' => some '\n'
  | c => if c ∈ ['\\', '\'', '"', '$', ' '] then some c else none

def State.stepReference (s : State) (valueOf : String → String) (c : Char) : State :=
  if Text.isAlphanumeric c then { s with name := c :: s.name }
  else
    match s.reference with
    | .braced =>
      if c == '\x7d' then { s.resolve valueOf with reference := .none }
      else { s with name := c :: s.name }
    | .bare | .none =>
      if c == '\x7b' && s.name.isEmpty then { s with reference := .braced }
      else if c == '$' then { s.resolve valueOf with reference := .bare }
      else { (s.resolve valueOf).push c with reference := .none }

def State.stepPlain (s : State) : Char → State
  | '\'' => { s with strong := true }
  | '"' => { s with weak := true }
  | '\\' => { s with escaped := true }
  | ' ' | '\t' => { s with ended := true }
  | c => s.push c

def State.stepWeak (s : State) : Char → State
  | '"' => { s with weak := false }
  | '\\' => { s with escaped := true }
  | c => s.push c

/-- The rest of a value, `none` if it is malformed. -/
def readValue (valueOf : String → String) : State → List Char → Option String
  | s, [] =>
    if s.reference == .braced || s.strong || s.weak then none
    else some (String.ofList (s.resolve valueOf).output.reverse)
  | s, c :: cs =>
    if s.ended then
      if c == ' ' || c == '\t' then readValue valueOf s cs
      else if c == '#' then some (String.ofList (s.resolve valueOf).output.reverse)
      else none
    else if s.escaped then
      (escape? c).bind fun e => readValue valueOf { s.push e with escaped := false } cs
    else if s.strong then
      readValue valueOf (if c == '\'' then { s with strong := false } else s.push c) cs
    else if s.reference != .none then readValue valueOf (s.stepReference valueOf c) cs
    else if c == '$' then readValue valueOf { s with reference := .bare } cs
    else if s.weak then readValue valueOf (s.stepWeak c) cs
    else readValue valueOf (s.stepPlain c) cs

/-- May a name start with this character? -/
def startsName (c : Char) : Bool :=
  c.isAlpha || c == '_'

/-- May a name go on with this character? -/
def continuesName (c : Char) : Bool :=
  c.isAlphanum || c == '_' || c == '.'

/-- The name a text starts with, and what follows it. -/
def name? : List Char → Option (List Char × List Char)
  | [] => none
  | c :: cs =>
    if startsName c then some ((c :: cs).takeWhile continuesName, (c :: cs).dropWhile continuesName)
    else none

def afterEquals? : List Char → Option (List Char)
  | '=' :: rest => some rest
  | _ => none

/-- The name that is assigned to, and what follows the equals sign; `export` may
stand before it, and is a name itself where the sign follows at once. -/
def target? (cs : List Char) : Option (List Char × List Char) := do
  let (key, rest) ← name? cs
  let rest := Text.trimStart rest
  if key = "export".toList then
    match afterEquals? rest with
    | some rest => return (key, rest)
    | none =>
      let (key, rest) ← name? rest
      return (key, ← afterEquals? (Text.trimStart rest))
  else return (key, ← afterEquals? rest)

/-- What a line says. -/
inductive Line
  | nothing
  | assignment (name value : String)
  | malformed

/-- The meaning of a line, with what its value may refer to. -/
def readLine (valueOf : String → String) (line : String) : Line :=
  match Text.trimStart (Text.trimEnd line.toList) with
  | [] | '#' :: _ => .nothing
  | cs =>
    match target? cs with
    | none => .malformed
    | some (name, rest) =>
      match Text.trimStart rest with
      | [] | '#' :: _ => .assignment (String.ofList name) ""
      | rest =>
        match readValue valueOf {} rest with
        | some value => .assignment (String.ofList name) value
        | none => .malformed

/-- The bytes of a line, read in reverse, without the carriage return at its end. -/
def dropReturn : List UInt8 → List UInt8
  | 13 :: line => line
  | line => line

/-- The lines of some bytes, behind a line that has been begun and is held in reverse.
A line feed ends a line, and a carriage return before it goes with it. -/
def cutLines (line : List UInt8) : List UInt8 → List (List UInt8)
  | [] => if line.isEmpty then [] else [line.reverse]
  | b :: rest =>
    if b == 10 then (dropReturn line).reverse :: cutLines [] rest else cutLines (b :: line) rest

/-- The lines of a file; one that is no text is `none`. -/
def lines (bytes : ByteArray) : List (Option String) :=
  (cutLines [] bytes.toList).map fun line => String.fromUTF8? ⟨line.toArray⟩

/-- What a reference stands for: a variable that is set, or else what a line before has
assigned. -/
def referred (vs assigned : Variables) (name : String) : String :=
  ((vs.search? name).or (assigned.get? name)).getD ""

/-- The variables that are set once a file's lines have been read, behind those that
have assigned to variables already. A variable that is set keeps its value. -/
def load (assigned vs : Variables) : List (Option String) → Variables
  | [] => vs
  | none :: _ => vs
  | some line :: lines =>
    match readLine (referred vs assigned) line with
    | .nothing => load assigned vs lines
    | .assignment name value => load ((name, value) :: assigned) (vs.setDefault name value) lines
    | .malformed => vs

end ScopedSettings.EnvFile
