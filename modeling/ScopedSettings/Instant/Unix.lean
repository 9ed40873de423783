/-
Instants counted from the first of January 1970, as clocks count them.

Years are taken to begin in March, so that a leap day is the last of its year;
the calendar then repeats every four hundred years.
-/
import ScopedSettings.Instant.Basic

namespace ScopedSettings

def daysPerEra : Nat := 146097

/-- The days from the first of March of the year zero to the first of January 1970. -/
def daysToEpoch : Nat := 719468

/-- The year within four hundred, counted from March, of a day within them. -/
def yearOfEra (day : Nat) : Nat :=
  (day - day / 1460 + day / 36524 - day / 146096) / 365

/-- The date a number of days after the first of January 1970, if it lies in the
calendar's years. -/
def Date.ofDays? (days : Int) : Option Date :=
  let shifted := days + daysToEpoch
  let day := (shifted % daysPerEra).toNat
  let year := yearOfEra day
  let dayOfYear := day - (365 * year + year / 4 - year / 100)
  let month := (5 * dayOfYear + 2) / 153
  let dayOfMonth := dayOfYear - (153 * month + 2) / 5 + 1
  let start := 400 * (shifted / daysPerEra) + year
  if month < 10 then Date.of? start (month + 3) dayOfMonth
  else Date.of? (start + 1) (month - 9) dayOfMonth

/-- The instant some seconds and nanoseconds after the beginning of 1970. -/
def Instant.ofUnix? (seconds : Int) (nano : Nat) : Option Instant := do
  Instant.of? (← Date.ofDays? (seconds / secondsPerDay)) (seconds % secondsPerDay).toNat nano

end ScopedSettings
