/-
The value of a numeral.

A numeral without fraction and exponent is an integer if it fits sixty-four
bits: unsigned, or signed behind a minus. Any other is a double, formed from
as many leading digits as fit sixty-four bits and a power of ten, with one
rounding for each. `-0` is a double: no integer has its sign.
-/
import ScopedSettings.Json.Problem
import ScopedSettings.Json.Token

namespace ScopedSettings.Json

/-- The value of a numeral. -/
inductive Number
  | natural (n : Nat)
  | negative (n : Int)
  | float (x : Binary64)
  deriving DecidableEq, Repr

def Number.found : Number → Found
  | .natural n => .integer n
  | .negative n => .integer n
  | .float x => .float x

/-- One more digit, while the number stays below the bound. -/
def appendDigit? (bound n d : Nat) : Option Nat :=
  if n * 10 + d < bound then some (n * 10 + d) else none

/-- The leading digits that fit below the bound, as a number, and the digits left over. -/
def fittingDigits (bound : Nat) : Nat → List Nat → Nat × List Nat
  | n, [] => (n, [])
  | n, d :: ds =>
    match appendDigit? bound n d with
    | some n' => fittingDigits bound n' ds
    | none => (n, d :: ds)

def largestPower : Nat := 308

/-- A power of ten as a double, up to the largest one. -/
def powerOfTen (k : Nat) : Binary64 :=
  (Binary64.ofNat (tenTo k)).getD .zero

/-- A double divided by `10^k`, in steps of the largest power. Past three such
steps every quotient of a sixty-four bit number is zero. -/
def divideByTenTo (x : Binary64) (k : Nat) : Nat → Option Binary64
  | 0 => some .zero
  | steps + 1 =>
    if k ≤ largestPower then x.div (powerOfTen k)
    else (x.div (powerOfTen largestPower)).bind fun y => divideByTenTo y (k - largestPower) steps

/-- The double of a significand and a decimal exponent, `none` out of range. -/
def scaledByTen (significand : Nat) (exponent : Int) : Option Binary64 :=
  match Binary64.ofNat significand with
  | none => none
  | some x =>
    if exponent < 0 then divideByTenTo x exponent.natAbs 4
    else if exponent ≤ largestPower then x.mul (powerOfTen exponent.toNat)
    else if x.significand == 0 then some x
    else none

/-- The exponents that count: what leaves this range is out of range itself, or zero. -/
def exponentBound : Nat := UInt32.size / 2

def Numeral.float? (n : Numeral) : Option Binary64 :=
  let (significand, dropped) := fittingDigits UInt64.size 0 n.whole
  let places := n.fraction.getD []
  let (significand, unused) := fittingDigits UInt64.size significand places
  let scale : Int := (dropped.length : Int) - (places.length - unused.length : Nat)
  let magnitude : Option Binary64 :=
    match n.exponent with
    | none => scaledByTen significand scale
    | some (minus, ds) =>
      match fittingDigits exponentBound 0 ds with
      | (e, []) => scaledByTen significand (scale + if minus then -(e : Int) else e)
      | (_, _ :: _) => if significand == 0 || minus then some .zero else none
  magnitude.map fun x => if n.negative then x.neg else x

/-- The integer a numeral spells, if it is written without fraction and exponent and
fits sixty-four bits. -/
def Numeral.integer? (n : Numeral) : Option Number :=
  match n.fraction, n.exponent, fittingDigits UInt64.size 0 n.whole with
  | none, none, (whole, []) =>
    if !n.negative then some (.natural whole)
    else if 0 < whole && whole ≤ UInt64.size / 2 then some (.negative (-whole))
    else none
  | _, _, _ => none

def Numeral.value (n : Numeral) : Except Flaw Number :=
  match n.integer? with
  | some i => .ok i
  | none =>
    match n.float? with
    | some x => .ok (.float x)
    | none => .error .numberOutOfRange

/-- The number a numeral spells, or what is wrong with the numeral. -/
def Numeral.read (n : Numeral) : Except Flaw Number :=
  match n.fault with
  | some .endOfInput => .error .endInValue
  | some .malformed => .error .invalidNumber
  | none => n.value

end ScopedSettings.Json
