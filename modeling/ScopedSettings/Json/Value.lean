/-
Writing JSON.

A value is written compactly, with nothing between its tokens, or laid out
with one member a line and two spaces a level. Texts escape only what the
format demands: quotation marks, backslashes and the controls below the space.
-/
import ScopedSettings.Text.Quoted

namespace ScopedSettings.Json

mutual

/-- A value to be written. -/
inductive Value
  | null
  | bool (b : Bool)
  | natural (n : Nat)
  | text (s : String)
  | object (members : Members)

/-- The members of an object, in the order they are written. -/
inductive Members
  | nil
  | cons (key : String) (value : Value) (rest : Members)

end

def Members.ofList : List (String × Value) → Members
  | [] => .nil
  | (key, value) :: rest => .cons key value (.ofList rest)

def Value.ofMembers (members : List (String × Value)) : Value :=
  .object (.ofList members)

def escapeChar (c : Char) : List Char :=
  match c with
  | '"' => ['\\', '"']
  | '\\' => ['\\', '\\']
  | '\x08' => ['\\', 'b']
  | '\t' => ['\\', 't']
  | '\n' => ['\\', 'n']
  | '\x0c' => ['\\', 'f']
  | '\r' => ['\\', 'r']
  | c => if c < ' ' then '\\' :: 'u' :: Text.hexPadded 4 c.toNat else [c]

/-- A written text, its quotation marks included. -/
def writeText (s : String) : List Char :=
  '"' :: (s.toList.flatMap escapeChar ++ ['"'])

def writeBool (b : Bool) : List Char :=
  if b then ['t', 'r', 'u', 'e'] else ['f', 'a', 'l', 's', 'e']

def writeNatural (n : Nat) : List Char :=
  (toString n).toList

/-! ## Compact -/

mutual

def Value.compactChars : Value → List Char
  | .null => ['n', 'u', 'l', 'l']
  | .bool b => writeBool b
  | .natural n => writeNatural n
  | .text s => writeText s
  | .object members => '{' :: members.compactChars false

/-- Members up to the closing brace; `comma` says whether one went before. -/
def Members.compactChars : Members → Bool → List Char
  | .nil, _ => ['}']
  | .cons key value rest, comma =>
    (if comma then [','] else []) ++ writeText key ++ ':' :: value.compactChars ++
      rest.compactChars true

end

def Value.compact (v : Value) : String :=
  String.ofList v.compactChars

/-! ## Laid out -/

def newline (level : Nat) : List Char :=
  '\n' :: List.replicate (2 * level) ' '

mutual

/-- A value with one member a line, its own lines at the given level. -/
def Value.prettyChars (level : Nat) : Value → List Char
  | .null => ['n', 'u', 'l', 'l']
  | .bool b => writeBool b
  | .natural n => writeNatural n
  | .text s => writeText s
  | .object members => '{' :: members.prettyChars level false

/-- Members up to the closing brace, which stands on the object's own level
unless there was none. -/
def Members.prettyChars (level : Nat) : Members → Bool → List Char
  | .nil, comma => (if comma then newline level else []) ++ ['}']
  | .cons key value rest, comma =>
    (if comma then [','] else []) ++ newline (level + 1) ++ writeText key ++ ':' :: ' ' ::
      value.prettyChars (level + 1) ++ rest.prettyChars level true

end

def Value.pretty (v : Value) : String :=
  String.ofList (v.prettyChars 0)

end ScopedSettings.Json
