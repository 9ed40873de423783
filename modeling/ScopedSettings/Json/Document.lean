/-
The JSON texts of a value, with every freedom of spelling the format allows.

A `Document` is a value together with how it is spelled: the blanks between its
tokens, the escapes of its texts, the digits, the fraction and the exponent of
its numbers, the members of its objects in their order, whatever their names.
Each part holds what the format's grammar asks of it, so that every document
is well formed and every well-formed text is that of a document. What a
literal stands for is told by its code units, and not by how it is scanned.
-/
import ScopedSettings.Json.Token
import ScopedSettings.Json.Value

namespace ScopedSettings.Json

/-! ## White space -/

/-- White space between two tokens, none at all included. -/
abbrev Blanks := { cs : List Char // ∀ c ∈ cs, isSpace c = true }

/-- No white space. -/
def Blanks.none : Blanks :=
  ⟨[], by simp⟩

/-! ## Literals -/

/-- The code units of a character in UTF-16: one, or a pair of surrogates. -/
def utf16 (c : Char) : List Nat :=
  if c.toNat < 0x10000 then [c.toNat]
  else [0xD800 + (c.toNat - 0x10000) / 0x400, 0xDC00 + (c.toNat - 0x10000) % 0x400]

/-- A hexadecimal digit; a letter may be large or small. -/
structure HexDigit where
  value : Fin 16
  isUpper : Bool
  deriving DecidableEq

def HexDigit.char (d : HexDigit) : Char :=
  let c := Text.hexDigit d.value
  if d.isUpper then c.toUpper else c

/-- The code unit of four digits. -/
def HexDigit.codeUnit (a b c d : HexDigit) : Nat :=
  ((a.value.val * 16 + b.value.val) * 16 + c.value.val) * 16 + d.value.val

/-- The escapes of two characters. -/
inductive ShortEscape
  | quote
  | backslash
  | slash
  | backspace
  | formFeed
  | newline
  | carriageReturn
  | tab
  deriving DecidableEq

/-- The character that stands behind the backslash. -/
def ShortEscape.mark : ShortEscape → Char
  | .quote => '"'
  | .backslash => '\\'
  | .slash => '/'
  | .backspace => 'b'
  | .formFeed => 'f'
  | .newline => 'n'
  | .carriageReturn => 'r'
  | .tab => 't'

/-- The character that is meant. -/
def ShortEscape.char : ShortEscape → Char
  | .quote => '"'
  | .backslash => '\\'
  | .slash => '/'
  | .backspace => '\x08'
  | .formFeed => '\x0c'
  | .newline => '\n'
  | .carriageReturn => '\r'
  | .tab => '\t'

/-- May a character stand for itself in a literal? -/
def isPlain (c : Char) : Bool :=
  ' ' ≤ c && c ≠ '"' && c ≠ '\\'

/-- One step of a literal: a character that stands for itself, an escape, or a code
unit in four hexadecimal digits. -/
inductive Glyph
  | plain (c : Char) (h : isPlain c = true)
  | short (e : ShortEscape)
  | unit (a b c d : HexDigit)
  deriving DecidableEq

def Glyph.chars : Glyph → List Char
  | .plain c _ => [c]
  | .short e => ['\\', e.mark]
  | .unit a b c d => ['\\', 'u', a.char, b.char, c.char, d.char]

/-- The code units a step of a literal stands for. -/
def Glyph.units : Glyph → List Nat
  | .plain c _ => utf16 c
  | .short e => utf16 e.char
  | .unit a b c d => [HexDigit.codeUnit a b c d]

/-- What stands between the quotation marks of a text. -/
abbrev Literal := List Glyph

def Literal.chars (l : Literal) : List Char :=
  '"' :: (l.flatMap Glyph.chars ++ ['"'])

def Literal.units (l : Literal) : List Nat :=
  l.flatMap Glyph.units

/-- Does a literal stand for a string? One with a surrogate that has no partner stands
for none. -/
def Literal.Spells (l : Literal) (s : String) : Prop :=
  l.units = s.toList.flatMap utf16

instance (l : Literal) (s : String) : Decidable (l.Spells s) :=
  inferInstanceAs (Decidable (_ = _))

/-- A spelling of a character: as itself where that is allowed, else as a code unit. -/
def Glyph.ofChar (c : Char) : Glyph :=
  if h : isPlain c = true then .plain c h
  else
    .unit ⟨0, false⟩ ⟨0, false⟩ ⟨Fin.ofNat 16 (c.toNat / 16), false⟩ ⟨Fin.ofNat 16 c.toNat, false⟩

/-- A literal of a string. -/
def Literal.ofString (s : String) : Literal :=
  s.toList.map Glyph.ofChar

/-! ## Numbers -/

/-- Digits, at least one. -/
abbrev Digits := { ds : List (Fin 10) // ds ≠ [] }

def digitChar (d : Fin 10) : Char :=
  Nat.digitChar d

def Digits.chars (ds : Digits) : List Char :=
  ds.val.map digitChar

/-- The sign in front of an exponent. -/
inductive ExponentSign
  | none
  | plus
  | minus
  deriving DecidableEq

def ExponentSign.chars : ExponentSign → List Char
  | .none => []
  | .plus => ['+']
  | .minus => ['-']

/-- The exponent of a number, behind a large or a small `e`. -/
structure Exponent where
  isUpper : Bool
  sign : ExponentSign
  digits : Digits
  deriving DecidableEq

def Exponent.chars (e : Exponent) : List Char :=
  (if e.isUpper then 'E' else 'e') :: (e.sign.chars ++ e.digits.chars)

/-- A number as it is spelled. The digits of its whole part are those of a natural number,
for none stands behind a leading zero. -/
structure Figure where
  isNegative : Bool
  whole : Nat
  fraction : Option Digits
  exponent : Option Exponent
  deriving DecidableEq

/-- The figure of a natural number: without sign, fraction and exponent there is no other. -/
def Figure.ofNat (n : Nat) : Figure :=
  ⟨false, n, none, none⟩

def Figure.tail (f : Figure) : List Char :=
  (f.fraction.elim [] fun ds => '.' :: ds.chars) ++ f.exponent.elim [] Exponent.chars

def Figure.chars (f : Figure) : List Char :=
  (if f.isNegative then ['-'] else []) ++ writeNatural f.whole ++ f.tail

/-! ## Documents -/

/-- An item of a list, with the white space around it. -/
structure Item (α : Type) where
  before : Blanks
  value : α
  after : Blanks

/-- A member of an object, with the white space around its name and its value. -/
structure Entry (α : Type) where
  before : Blanks
  name : Literal
  afterName : Blanks
  beforeValue : Blanks
  value : α
  after : Blanks

/-- An item without white space. -/
def Item.of (value : α) : Item α :=
  ⟨.none, value, .none⟩

/-- A member without white space. -/
def Entry.of (name : String) (value : α) : Entry α :=
  ⟨.none, .ofString name, .none, .none, value, .none⟩

/-- A value and its spelling. The white space of a list or an object is what stands behind
its opening bracket, in front of the first item if there is one. -/
inductive Document
  | null
  | bool (b : Bool)
  | number (f : Figure)
  | text (l : Literal)
  | list (gap : Blanks) (items : List (Item Document))
  | object (gap : Blanks) (entries : List (Entry Document))

mutual

def Document.chars : Document → List Char
  | .null => ['n', 'u', 'l', 'l']
  | .bool b => writeBool b
  | .number f => f.chars
  | .text l => l.chars
  | .list gap items => '[' :: (gap.val ++ itemsChars items false)
  | .object gap entries => '{' :: (gap.val ++ entriesChars entries false)

/-- Items up to the closing bracket; `comma` says whether one went before. -/
def itemsChars : List (Item Document) → Bool → List Char
  | [], _ => [']']
  | ⟨before, value, after⟩ :: rest, comma =>
    (if comma then [','] else []) ++ before.val ++ value.chars ++ after.val ++ itemsChars rest true

/-- Entries up to the closing brace. -/
def entriesChars : List (Entry Document) → Bool → List Char
  | [], _ => ['}']
  | ⟨before, name, afterName, beforeValue, value, after⟩ :: rest, comma =>
    (if comma then [','] else []) ++ before.val ++ name.chars ++ afterName.val ++
      ':' :: (beforeValue.val ++ value.chars ++ after.val ++ entriesChars rest true)

end

/-- Is the document a text, and one that stands for this string? -/
def Document.SpellsText (d : Document) (s : String) : Prop :=
  ∃ l, d = .text l ∧ l.Spells s

/-- A value that may be null: null stands for none. -/
def Document.OrNull (spells : Document → α → Prop) (d : Document) : Option α → Prop
  | none => d = .null
  | some a => spells d a

/-- The text of a document with white space around it. -/
def Document.written (before : Blanks) (d : Document) (after : Blanks) : String :=
  String.ofList (before.val ++ d.chars ++ after.val)

end ScopedSettings.Json
