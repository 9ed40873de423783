/-
Finite doubles, exactly.

A double is a sign, a significand below `2^53` and a unit: its value is
`± significand * 2^unit / 2^1074`. Every operation forms its exact result as
a quotient of naturals and rounds once (`ofQuotient`), to the nearest double
and on a tie to the even significand; a result from `2^1024 - 2^970` on is no
finite double and comes back as `none`.
-/

namespace ScopedSettings

/-- The quotient rounded to the nearest natural number, a tie to the even one. -/
def roundQuotient (num den : Nat) : Nat :=
  let q := num / den
  let r := num % den
  if 2 * r < den || (2 * r == den && q % 2 == 0) then q else q + 1

def twoTo (k : Nat) : Nat :=
  (2 : Nat).pow k

def tenTo (k : Nat) : Nat :=
  (10 : Nat).pow k

/-- A finite double of value `± significand * 2^unit / 2^1074`. -/
structure Binary64 where
  negative : Bool
  significand : Nat
  unit : Nat
  deriving DecidableEq, Repr

namespace Binary64

def zero : Binary64 := ⟨false, 0, 0⟩

/-- The magnitude in units of `2^-1074`. -/
def magnitude (x : Binary64) : Nat :=
  x.significand * twoTo x.unit

/-- The value in units of `2^-1074`. -/
def scaled (x : Binary64) : Int :=
  if x.negative then -(x.magnitude : Int) else x.magnitude

/-- The double nearest to `± num / (den * 2^1074)`, `none` beyond the largest one. -/
def ofScaled (negative : Bool) (num den : Nat) : Option Binary64 :=
  let unit := (num / den).log2 - 52
  let significand := roundQuotient num (den * twoTo unit)
  let carried := significand == twoTo 53
  let unit := if carried then unit + 1 else unit
  if unit ≤ 2045 then some ⟨negative, if carried then twoTo 52 else significand, unit⟩ else none

/-- The double nearest to `± num / den`. -/
def ofQuotient (negative : Bool) (num den : Nat) : Option Binary64 :=
  ofScaled negative (num * twoTo 1074) den

def ofNat (n : Nat) : Option Binary64 :=
  ofQuotient false n 1

/-- The product, rounded once. -/
def mul (x y : Binary64) : Option Binary64 :=
  ofScaled (x.negative != y.negative) (x.magnitude * y.magnitude) (twoTo 1074)

/-- The quotient by a double other than zero, rounded once. -/
def div (x y : Binary64) : Option Binary64 :=
  ofScaled (x.negative != y.negative) (x.magnitude * twoTo 1074) y.magnitude

/-- The difference, rounded once; an exact zero is positive. -/
def sub (x y : Binary64) : Option Binary64 :=
  let d := x.scaled - y.scaled
  ofScaled (d < 0) d.natAbs 1

def neg (x : Binary64) : Binary64 :=
  { x with negative := !x.negative }

/-- The sixty-four bits of the interchange format, as a number. -/
def bits (x : Binary64) : Nat :=
  (if x.negative then twoTo 63 else 0) +
    if x.significand < twoTo 52 then x.significand
    else (x.unit + 1) * twoTo 52 + (x.significand - twoTo 52)

end Binary64
end ScopedSettings
