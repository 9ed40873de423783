/-
Decimal texts of doubles.

`shortest` gives the fewest digits that read back as the same double, the
nearest of those: it walks the decimal grids of 1, 2, … 17 digits and takes
the first that has a point in the interval of reals rounding to the double.
`fixed` gives a set number of places, rounded from the exact binary value.
-/
import ScopedSettings.Binary64.Basic

namespace ScopedSettings.Binary64

/-- `digits * 10^exponent`. -/
structure Decimal where
  digits : Nat
  exponent : Int
  deriving DecidableEq, Repr

/-- The interval of reals that round to a positive double, in units of
`2^-1076`; its ends belong to it when `closed`. -/
structure Span where
  low : Nat
  value : Nat
  high : Nat
  closed : Bool

/-- Half the gap to each neighbour; the gap below a power of two is half as wide. -/
def span (x : Binary64) : Span :=
  let value := 4 * x.magnitude
  let half := 2 * twoTo x.unit
  { low := value - (if x.significand == twoTo 52 && x.unit != 0 then half / 2 else half)
    value
    high := value + half
    closed := x.significand % 2 == 0 }

def Span.scale (s : Span) (k : Nat) : Span :=
  { s with low := s.low * k, value := s.value * k, high := s.high * k }

/-- Does a point lie in the span? -/
def Span.contains (s : Span) (p : Nat) : Bool :=
  if s.closed then s.low ≤ p && p ≤ s.high else s.low < p && p < s.high

/-- The multiple of `10^exponent` in the span that is nearest to the double,
if there is one: it is one of the double's two neighbours on that grid. -/
def Span.nearest? (s : Span) (exponent : Int) : Option Decimal :=
  let s := s.scale (tenTo (-exponent).toNat)
  let step := tenTo exponent.toNat * twoTo 1076
  let below := s.value / step
  let above := below + 1
  let pick := fun d => some (Decimal.mk d exponent)
  match s.contains (below * step), s.contains (above * step) with
  | true, true => pick (roundQuotient s.value step)
  | true, false => pick below
  | false, true => pick above
  | false, false => none

/-- The exponent of the first digit: the largest `e` with `10^e` at most the
value `n / 2^1076`, searched downward from `e`. -/
def leadingExponent (n : Nat) : Nat → Int → Int
  | 0, e => e
  | fuel + 1, e =>
    if tenTo e.toNat * twoTo 1076 ≤ n * tenTo (-e).toNat then e else leadingExponent n fuel (e - 1)

/-- The grids of `k`, `k + 1`, … digits, tried in turn. -/
def shortestFrom (s : Span) (lead : Int) (k : Nat) : Nat → Decimal
  | 0 => ⟨0, 0⟩
  | fuel + 1 => (s.nearest? (lead - (k - 1 : Nat))).getD (shortestFrom s lead (k + 1) fuel)

/-- A power of ten above the value `n / 2^1076`, from its binary length. -/
def exponentBound (n : Nat) : Int :=
  (((n.log2 : Int) - 1076) * 30103) / 100000 + 1

/-- The fewest digits that read back as the double, the nearest of those. -/
def shortest (x : Binary64) : Decimal :=
  if x.significand == 0 then ⟨0, 0⟩
  else
    let s := x.span
    shortestFrom s (leadingExponent s.value 4 (exponentBound s.value)) 1 17

/-- The exact value rounded to a number of decimal places, a tie to the even
last digit: the digits before the point and those after it. -/
def fixed (places : Nat) (x : Binary64) : String :=
  let n := roundQuotient (x.magnitude * tenTo places) (twoTo 1074)
  let fraction := toString (n % tenTo places)
  let sign := if x.negative then "-" else ""
  sign ++ toString (n / tenTo places) ++ "." ++
    String.ofList (List.replicate (places - fraction.length) '0') ++ fraction

/-- Where a plain decimal text gives way to one with an exponent. -/
structure PlainRange where
  least : Int
  greatest : Int

/-- A double in diagnostics is written plainly while its first digit stands
between the fifth place after the point and the sixteenth before it. -/
def plainRange : PlainRange := ⟨-5, 15⟩

/-- The digits of a decimal without its trailing zeros, which move into the exponent. -/
def Decimal.strip (fuel : Nat) (d : Decimal) : Decimal :=
  match fuel with
  | 0 => d
  | fuel + 1 =>
    if d.digits % 10 == 0 && d.digits != 0 then Decimal.strip fuel ⟨d.digits / 10, d.exponent + 1⟩
    else d

/-- An exponent: its sign, which is always written, and its digits. -/
def exponentText (lead : Int) : List Char :=
  (if lead < 0 then '-' else '+') :: (toString lead.natAbs).toList

/-- The digits with a point after the first, and the exponent. -/
def scientific (ds : List Char) (lead : Int) : List Char :=
  let mantissa := match ds with
    | [] => []
    | [d] => [d]
    | d :: rest => d :: '.' :: rest
  mantissa ++ 'e' :: exponentText lead

/-- The digits around a point, with at least one on either side. -/
def plain (ds : List Char) (lead : Int) : List Char :=
  if lead < 0 then
    '0' :: '.' :: (List.replicate (lead.natAbs - 1) '0' ++ ds)
  else
    let whole := lead.toNat + 1
    let padded := ds ++ List.replicate (whole - ds.length) '0'
    let fraction := padded.drop whole
    padded.take whole ++ '.' :: (if fraction.isEmpty then ['0'] else fraction)

/-- The shortest text of a double, always with a point or an exponent. -/
def text (x : Binary64) : String :=
  let d := x.shortest.strip 17
  let ds := (toString d.digits).toList
  let lead : Int := d.exponent + (ds.length - 1 : Nat)
  let body :=
    if plainRange.least ≤ lead && lead ≤ plainRange.greatest then plain ds lead
    else scientific ds lead
  String.ofList (if x.negative then '-' :: body else body)

end ScopedSettings.Binary64
