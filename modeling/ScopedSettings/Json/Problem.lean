/-
What can be wrong with a JSON text, and the words for it.

A problem is a flaw of the text itself or a value that does not fit what is
asked for. Both carry the path to the value that was being read; the path is
no part of the message, but some callers print it.
-/
import ScopedSettings.Binary64.Decimal
import ScopedSettings.Text.Quoted

namespace ScopedSettings.Json

/-- Faults of a text that make it no JSON. -/
inductive Flaw
  | endInValue
  | endInObject
  | endInList
  | endInText
  | expectedValue
  | expectedWord
  | expectedColon
  | expectedListEnd
  | expectedObjectEnd
  | keyNotText
  | trailingComma
  | trailingCharacters
  | invalidNumber
  | numberOutOfRange
  | invalidEscape
  | loneSurrogate
  | unexpectedEscapeEnd
  | controlCharacter
  | notUnicode
  deriving DecidableEq, Repr

def Flaw.message : Flaw → String
  | .endInValue => "EOF while parsing a value"
  | .endInObject => "EOF while parsing an object"
  | .endInList => "EOF while parsing a list"
  | .endInText => "EOF while parsing a string"
  | .expectedValue => "expected value"
  | .expectedWord => "expected ident"
  | .expectedColon => "expected `:`"
  | .expectedListEnd => "expected `,` or `]`"
  | .expectedObjectEnd => "expected `,` or `\x7d`"
  | .keyNotText => "key must be a string"
  | .trailingComma => "trailing comma"
  | .trailingCharacters => "trailing characters"
  | .invalidNumber => "invalid number"
  | .numberOutOfRange => "number out of range"
  | .invalidEscape => "invalid escape"
  | .loneSurrogate => "lone leading surrogate in hex escape"
  | .unexpectedEscapeEnd => "unexpected end of hex escape"
  | .controlCharacter => "control character (\\u0000-\\u001F) found while parsing a string"
  | .notUnicode => "invalid unicode code point"

/-- A value that was found where another was asked for. -/
inductive Found
  | null
  | bool (b : Bool)
  | integer (n : Int)
  | float (x : Binary64)
  | text (s : String)
  | list
  | object
  | unitVariant
  deriving DecidableEq, Repr

def Found.describe : Found → String
  | .null => "null"
  | .bool b => "boolean `" ++ toString b ++ "`"
  | .integer n => "integer `" ++ toString n ++ "`"
  | .float x => "floating point `" ++ x.text ++ "`"
  | .text s => "string " ++ Text.quoted s
  | .list => "sequence"
  | .object => "map"
  | .unitVariant => "unit variant"

/-- Values that do not fit what is asked for. -/
inductive Misfit
  | wrongType (found : Found) (expected : String)
  | wrongValue (found : Found) (expected : String)
  | wrongLength (length : Nat) (expected : String)
  | missingField (name : String)
  | duplicateField (name : String)
  | unknownField (name : String) (known : List String)
  | unknownVariant (name : String) (known : List String)
  /-- A value of the right shape that its own reader refuses, in that reader's words. -/
  | refused (reason : String)
  deriving DecidableEq, Repr

def ticked (s : String) : String :=
  "`" ++ s ++ "`"

/-- A choice among names: two with `or`, more as a list. -/
def oneOf : List String → String
  | [] => "there are no fields"
  | [a] => "expected " ++ ticked a
  | [a, b] => "expected " ++ ticked a ++ " or " ++ ticked b
  | names => "expected one of " ++ String.intercalate ", " (names.map ticked)

def Misfit.message : Misfit → String
  | .wrongType found expected => "invalid type: " ++ found.describe ++ ", expected " ++ expected
  | .wrongValue found expected => "invalid value: " ++ found.describe ++ ", expected " ++ expected
  | .wrongLength length expected =>
    "invalid length " ++ toString length ++ ", expected " ++ expected
  | .missingField name => "missing field " ++ ticked name
  | .duplicateField name => "duplicate field " ++ ticked name
  | .unknownField name known => "unknown field " ++ ticked name ++ ", " ++ oneOf known
  | .unknownVariant name known => "unknown variant " ++ ticked name ++ ", " ++ oneOf known
  | .refused reason => reason

/-- A step from a value into a part of it. -/
inductive PathStep
  | key (name : String)
  | index (i : Nat)
  deriving DecidableEq, Repr

/-- The first problem of a text, with the path to the value it lies in. -/
inductive Problem
  | flaw (path : List PathStep) (f : Flaw)
  | misfit (path : List PathStep) (m : Misfit)
  deriving DecidableEq, Repr

/-- The words for a problem, without its path. -/
def Problem.message : Problem → String
  | .flaw _ f => f.message
  | .misfit _ m => m.message

def Problem.path : Problem → List PathStep
  | .flaw p _ => p
  | .misfit p _ => p

/-- The same problem, seen from one value further out. -/
def Problem.within (s : PathStep) : Problem → Problem
  | .flaw p f => .flaw (s :: p) f
  | .misfit p m => .misfit (s :: p) m

def pathText : List PathStep → String
  | [] => ""
  | [.key k] => k
  | .key k :: .key k' :: rest => k ++ "." ++ pathText (.key k' :: rest)
  | .key k :: rest => k ++ pathText rest
  | .index i :: .key k :: rest => "[" ++ toString i ++ "]." ++ pathText (.key k :: rest)
  | .index i :: rest => "[" ++ toString i ++ "]" ++ pathText rest

/-- The words for a problem, after its path if that leads anywhere. -/
def Problem.located (p : Problem) : String :=
  match p.path with
  | [] => p.message
  | path => pathText path ++ ": " ++ p.message

end ScopedSettings.Json
