/-
Reading instants.

The reader is lenient about blanks, leading zeros and separators, and strict
about ranges: each number is checked as soon as it has been read, so the first
fault from the left is the one reported.
-/
import ScopedSettings.Instant.Basic
import ScopedSettings.Text.Blank

namespace ScopedSettings.Instant

/-- Why a text is no instant. -/
inductive Fault
  | tooShort
  | invalid
  | outOfRange
  | trailing
  | impossible
  deriving DecidableEq, Repr

def Fault.message : Fault → String
  | .tooShort => "premature end of input"
  | .invalid => "input contains invalid characters"
  | .outOfRange => "input is out of range"
  | .trailing => "trailing input"
  | .impossible => "no possible date and time matching input"

def digit? (c : Char) : Option Nat :=
  if '0' ≤ c ∧ c ≤ '9' then some (c.toNat - '0'.toNat) else none

def numberBound : Nat := UInt64.size / 2

/-- More digits of a number, at most `width` of them if that is given. -/
def moreDigits : Option Nat → Nat → List Char → Except Fault (Nat × List Char)
  | some 0, n, cs => .ok (n, cs)
  | _, n, [] => .ok (n, [])
  | width, n, c :: cs =>
    match digit? c with
    | none => .ok (n, c :: cs)
    | some d =>
      if n * 10 + d < numberBound then moreDigits (width.map (· - 1)) (n * 10 + d) cs
      else .error .outOfRange

/-- A number of at least one digit. -/
def number (width : Option Nat) (cs : List Char) : Except Fault (Nat × List Char) :=
  match cs with
  | [] => .error .tooShort
  | c :: _ => if (digit? c).isSome then moreDigits width 0 cs else .error .invalid

/-- A number of one or two digits after blanks, within a range. -/
def numberIn (least greatest : Nat) (cs : List Char) : Except Fault (Nat × List Char) := do
  let (n, rest) ← number (some 2) (Text.trimStart cs)
  if least ≤ n && n ≤ greatest then .ok (n, rest) else .error .outOfRange

/-- Years lie below this number, before and after the year zero. -/
def yearBound : Nat := UInt32.size / 2

/-- A year after blanks: four digits, or any number of them behind a sign. -/
def year (cs : List Char) : Except Fault (Int × List Char) := do
  let (y, rest) ← match Text.trimStart cs with
    | '-' :: rest => (number none rest).map fun (n, rest) => (-(n : Int), rest)
    | '+' :: rest => (number none rest).map fun (n, rest) => ((n : Int), rest)
    | cs => (number (some 4) cs).map fun (n, rest) => ((n : Int), rest)
  if -(yearBound : Int) ≤ y && y < yearBound then .ok (y, rest) else .error .outOfRange

/-- What follows a separator, blanks before it allowed. -/
def after (separator : Char) (cs : List Char) : Except Fault (List Char) :=
  match Text.trimStart cs with
  | [] => .error .tooShort
  | c :: rest => if c == separator then .ok rest else .error .invalid

def afterDate : List Char → Except Fault (List Char)
  | 'T' :: rest | 't' :: rest | ' ' :: rest => .ok rest
  | [] => .error .tooShort
  | _ => .error .invalid

/-- The nanoseconds after a point; digits past the ninth are dropped. -/
def fraction : List Char → Except Fault (Nat × List Char)
  | '.' :: rest =>
    match number (some 9) rest with
    | .error f => .error f
    | .ok (n, behind) =>
      .ok (n * (10 : Nat).pow (9 - (rest.length - behind.length)),
        behind.dropWhile fun c => (digit? c).isSome)
  | cs => .ok (0, cs)

/-- The next two digits: each position's digit, `tooShort` if less than two bytes follow. -/
def twoDigits : List Char → Except Fault ((Nat × Nat) × List Char)
  | [] => .error .tooShort
  | [c] => if c.utf8Size < 2 then .error .tooShort else .error .invalid
  | a :: b :: rest =>
    match digit? a, digit? b with
    | some m, some n => .ok ((m, n), rest)
    | _, _ => .error .invalid

/-- The sign of an offset: whether it is behind. The minus sign proper counts as a hyphen. -/
def offsetSign : List Char → Except Fault (Bool × List Char)
  | '+' :: rest => .ok (false, rest)
  | '-' :: rest | '\u2212' :: rest => .ok (true, rest)
  | [] => .error .tooShort
  | _ => .error .invalid

/-- An offset in hours and minutes, in seconds. -/
def hoursAndMinutes (cs : List Char) : Except Fault (Int × List Char) := do
  let (behind, cs) ← offsetSign cs
  let ((h₁, h₂), cs) ← twoDigits cs
  let ((m₁, m₂), cs) ← twoDigits (cs.dropWhile fun c => c == ':' || Text.isBlank c)
  if m₁ < 6 then
    let seconds : Int := (((h₁ * 10 + h₂) * 60 + (m₁ * 10 + m₂)) * 60 : Nat)
    return (if behind then -seconds else seconds, cs)
  else .error .outOfRange

/-- An offset: `UTC` in any case, `Z` in either, or hours and minutes. -/
def offset : List Char → Except Fault (Int × List Char)
  | 'Z' :: rest | 'z' :: rest => .ok (0, rest)
  | u :: t :: c :: rest =>
    if u.toLower == 'u' && t.toLower == 't' && c.toLower == 'c' then .ok (0, rest)
    else hoursAndMinutes (u :: t :: c :: rest)
  | cs => hoursAndMinutes cs

/-- The parts of an instant as they are written. -/
structure Parts where
  year : Int
  month : Nat
  day : Nat
  hour : Nat
  minute : Nat
  second : Nat
  nano : Nat
  offset : Int

/-- The parts of the instant a text starts with, and what follows. -/
def parts (cs : List Char) : Except Fault (Parts × List Char) := do
  let (year, cs) ← year cs
  let cs ← after '-' cs
  let (month, cs) ← numberIn 1 12 cs
  let cs ← after '-' cs
  let (day, cs) ← numberIn 1 31 cs
  let cs ← afterDate cs
  let (hour, cs) ← numberIn 0 23 cs
  let cs ← after ':' cs
  let (minute, cs) ← numberIn 0 59 cs
  let cs ← after ':' cs
  let (second, cs) ← numberIn 0 60 cs
  let (nano, cs) ← fraction cs
  let (offset, cs) ← offset (Text.trimStart cs)
  return ({ year, month, day, hour, minute, second, nano, offset }, cs)

/-- The instant of its parts: the sixtieth second is the fifty-ninth's leap second. -/
def Parts.instant (p : Parts) : Except Fault Instant :=
  let leap := p.second == 60
  let second := p.hour * 3600 + p.minute * 60 + if leap then 59 else p.second
  let nano := p.nano + if leap then nanosPerSecond else 0
  match Date.of? p.year p.month p.day with
  | none => .error .outOfRange
  | some date =>
    if p.offset.natAbs < secondsPerDay then
      match Instant.ofLocal? date second nano p.offset with
      | some t => .ok t
      | none => .error .impossible
    else .error .outOfRange

def parse (s : String) : Except Fault Instant := do
  let (p, rest) ← parts s.toList
  if rest.all Text.isBlank then p.instant else .error .trailing

end ScopedSettings.Instant
