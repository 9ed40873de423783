/-
The texts of a timestamp: as it stands in a record, with `T` and `Z` and the
fewest of 0, 3, 6 or 9 places that are exact, and as a line of a listing, in
whole seconds. A leap second is written as the second that follows: as the
sixtieth where it ends a minute.
-/
import ScopedSettings.Instant.Basic

namespace ScopedSettings

/-- A number in decimal, padded with zeros to a width. -/
def padded (width n : Nat) : List Char :=
  let ds := (toString n).toList
  List.replicate (width - ds.length) '0' ++ ds

/-- A year: four digits from 0 to 9999, otherwise a sign and at least four. -/
def yearChars (year : Int) : List Char :=
  if 0 ≤ year ∧ year ≤ 9999 then padded 4 year.toNat
  else (if year < 0 then '-' else '+') :: padded 4 year.natAbs

def fractionChars (nano : Nat) : List Char :=
  if nano == 0 then []
  else if nano % 1000000 == 0 then '.' :: padded 3 (nano / 1000000)
  else if nano % 1000 == 0 then '.' :: padded 6 (nano / 1000)
  else '.' :: padded 9 nano

namespace Timestamp

def dateChars (t : Timestamp) : List Char :=
  yearChars t.date.year ++ '-' :: padded 2 t.date.month ++ '-' :: padded 2 t.date.day

/-- Is the timestamp inside a leap second? -/
def isLeap (t : Timestamp) : Bool :=
  nanosPerSecond ≤ t.nano

/-- The time of day to the second, its parts joined by colons. -/
def timeChars (t : Timestamp) : List Char :=
  padded 2 (t.second / 3600) ++ ':' :: padded 2 (t.second / 60 % 60) ++
    ':' :: padded 2 (t.second % 60 + if t.isLeap then 1 else 0)

def chars (t : Timestamp) : List Char :=
  t.dateChars ++ 'T' :: t.timeChars ++ fractionChars (t.nano % nanosPerSecond) ++ ['Z']

def text (t : Timestamp) : String :=
  String.ofList t.chars

def listingText (t : Timestamp) : String :=
  String.ofList (t.dateChars ++ ' ' :: t.timeChars ++ " UTC".toList)

end Timestamp
end ScopedSettings
