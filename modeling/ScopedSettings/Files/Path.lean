/-
Paths, as texts and as the names they lead through.

A path is cut at its slashes. Empty names lead nowhere, but a slash at the end
asks for a directory; `.` stays in a directory, so that what stands before it
has to be one. The part of a path that names a file (`split?`) is what the
temporary sibling of a record file is derived from.
-/

namespace ScopedSettings.Files

/-- The parts of a text between a separator, one more than there are separators. -/
def splitAt (separator : Char) : List Char → List (List Char)
  | [] => [[]]
  | c :: cs =>
    if c == separator then [] :: splitAt separator cs
    else
      match splitAt separator cs with
      | [] => [[c]]
      | part :: parts => (c :: part) :: parts

/-- The names a path leads through, in order, without the empty ones. -/
def names (path : String) : List String :=
  ((splitAt '/' path.toList).map String.ofList).filter fun n => n != ""

/-- Does a path start at the root? -/
def isAbsolute (path : String) : Bool :=
  path.toList.head? == some '/'

/-- Does a path ask for a directory, by a slash at its end? -/
def asksDirectory (path : String) : Bool :=
  path.toList.getLast? == some '/'

/-! ## The name of a file -/

/-- A path without the slashes and the `.` names that end it, with the number of
characters left out. The text is reversed. -/
def dropEnding : List Char → List Char
  | '/' :: rest => dropEnding rest
  | '.' :: '/' :: rest => dropEnding rest
  | cs => cs

/-- A path around its file name: what stands before it, the name, what follows. -/
structure Split where
  before : String
  name : String
  after : String

/-- The file name of a path. Paths that end in `..`, or have no name at all, have none. -/
def split? (path : String) : Option Split :=
  let reversed := path.toList.reverse
  let kept := dropEnding reversed
  let name := (kept.takeWhile (· != '/')).reverse
  let before := (kept.dropWhile (· != '/')).reverse
  if name = [] ∨ name = ['.'] ∨ name = ['.', '.'] then none
  else some {
    before := String.ofList before
    name := String.ofList name
    after := String.ofList (reversed.take (reversed.length - kept.length)).reverse }

/-- The directory part of a path: what leads to its last name, `.` if nothing does. -/
def parent (path : String) : String :=
  let kept := dropEnding path.toList.reverse
  match dropEnding (kept.dropWhile (· != '/')) with
  | [] => if isAbsolute path then "/" else "."
  | before => String.ofList before.reverse

/-- A name cut at its last point into stem and extension. A point at the start of
the name begins no extension. -/
def splitExtension (name : String) : String × Option String :=
  let reversed := name.toList.reverse
  match reversed.dropWhile (· != '.') with
  | [] | ['.'] => (name, none)
  | _ :: stem =>
    (String.ofList stem.reverse, some (String.ofList (reversed.takeWhile (· != '.')).reverse))

def temporaryEnding : String := ".json.tmp"

/-- The temporary sibling of a file: its name with the extension replaced. A path
without a file name is its own sibling, and so is what is left of a name that is
two points and an extension. -/
def temporarySibling (path : String) : String :=
  match split? path with
  | none => path
  | some s =>
    match splitExtension s.name with
    | (".", some _) => if s.after = "" then s.before ++ ".." else s.before ++ "." ++ temporaryEnding
    | (stem, _) => s.before ++ stem ++ temporaryEnding

end ScopedSettings.Files
