/-
Quoted texts, for diagnostics: a text between quotation marks in which every
character that would not show is written as an escape.
-/
import ScopedSettings.Text.Extending
import ScopedSettings.Text.Unprintable

namespace ScopedSettings.Text

def hexDigit (n : Nat) : Char :=
  if n < 10 then Char.ofNat ('0'.toNat + n) else Char.ofNat ('a'.toNat + (n - 10))

/-- A number in lower-case hexadecimal, with at least one digit. -/
def hex (n : Nat) : List Char :=
  if n < 16 then [hexDigit n] else hex (n / 16) ++ [hexDigit (n % 16)]

/-- A number in lower-case hexadecimal, padded with zeros to `width` digits. -/
def hexPadded (width n : Nat) : List Char :=
  let digits := hex n
  List.replicate (width - digits.length) '0' ++ digits

/-- A character as it stands in a quoted text: `"` and `\` behind a backslash,
the common controls by letter, anything else that has no shape of its own as
`\u` and its braced hexadecimal number. -/
def quotedChar (c : Char) : List Char :=
  match c with
  | '"' => ['\\', '"']
  | '\\' => ['\\', '\\']
  | '\n' => ['\\', 'n']
  | '\r' => ['\\', 'r']
  | '\t' => ['\\', 't']
  | '\x00' => ['\\', '0']
  | c =>
    if isExtending c || isUnprintable c then
      '\\' :: 'u' :: '\x7b' :: (hex c.toNat ++ ['\x7d'])
    else [c]

/-- A text between quotation marks, with escapes. -/
def quoted (s : String) : String :=
  String.ofList ('"' :: (s.toList.flatMap quotedChar ++ ['"']))

end ScopedSettings.Text
