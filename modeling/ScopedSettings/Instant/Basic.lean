/-
Points in time on the civil calendar, in Coordinated Universal Time.

A timestamp is a date, a second of the day and nanoseconds. The nanoseconds of a leap
second run on past one thousand million, and a timestamp can have them after any second of
the day. Clocks show a leap second only as the end of a minute's last second, and texts
spell it only there: such a timestamp is an instant. Dates lie in the years the settings
record can carry, and moving an instant by an offset of less than a day moves its date by
one day at most.
-/

namespace ScopedSettings

def isLeapYear (year : Int) : Bool :=
  year % 4 == 0 && (year % 100 != 0 || year % 400 == 0)

def daysInMonth (year : Int) (month : Nat) : Nat :=
  match month with
  | 2 => if isLeapYear year then 29 else 28
  | 4 | 6 | 9 | 11 => 30
  | _ => 31

/-- The first year a date can lie in. -/
def firstYear : Int := -262143

def lastYear : Int := 262142

/-- Is this a day of the calendar? -/
def IsDate (year : Int) (month day : Nat) : Prop :=
  firstYear ≤ year ∧ year ≤ lastYear ∧ 1 ≤ month ∧ month ≤ 12 ∧
    1 ≤ day ∧ day ≤ daysInMonth year month

instance (year : Int) (month day : Nat) : Decidable (IsDate year month day) :=
  inferInstanceAs (Decidable (_ ∧ _))

/-- A day of the calendar. -/
structure Date where
  year : Int
  month : Nat
  day : Nat
  isDate : IsDate year month day
  deriving DecidableEq

/-- The date of the given numbers, if the calendar has it. -/
def Date.of? (year : Int) (month day : Nat) : Option Date :=
  if h : IsDate year month day then some ⟨year, month, day, h⟩ else none

/-- The day after, if it lies in the calendar's years. -/
def Date.next? (d : Date) : Option Date :=
  if d.day < daysInMonth d.year d.month then Date.of? d.year d.month (d.day + 1)
  else if d.month < 12 then Date.of? d.year (d.month + 1) 1
  else Date.of? (d.year + 1) 1 1

/-- The day before, if it lies in the calendar's years. -/
def Date.previous? (d : Date) : Option Date :=
  if 1 < d.day then Date.of? d.year d.month (d.day - 1)
  else if 1 < d.month then Date.of? d.year (d.month - 1) (daysInMonth d.year (d.month - 1))
  else Date.of? (d.year - 1) 12 31

def secondsPerDay : Nat := 86400

def nanosPerSecond : Nat := 1000000000

/-- Is this a time of day? Any second can run on as a leap second. -/
def IsTime (second nano : Nat) : Prop :=
  second < secondsPerDay ∧ nano < 2 * nanosPerSecond

instance (second nano : Nat) : Decidable (IsTime second nano) :=
  inferInstanceAs (Decidable (_ ∧ _))

/-- A point in time in Coordinated Universal Time. -/
structure Timestamp where
  date : Date
  second : Nat
  nano : Nat
  isTime : IsTime second nano
  deriving DecidableEq

/-- Is a time of day none in a leap second, or in one that ends a minute? -/
def IsRegularTime (second nano : Nat) : Prop :=
  nanosPerSecond ≤ nano → second % 60 = 59

instance (second nano : Nat) : Decidable (IsRegularTime second nano) :=
  inferInstanceAs (Decidable (_ → _))

/-- Is a timestamp an instant, which clocks can show and texts can spell? -/
def Timestamp.IsRegular (t : Timestamp) : Prop :=
  IsRegularTime t.second t.nano

instance (t : Timestamp) : Decidable t.IsRegular :=
  inferInstanceAs (Decidable (IsRegularTime _ _))

/-- An instant in Coordinated Universal Time: its leap seconds end minutes. -/
structure Instant extends Timestamp where
  isRegular : toTimestamp.IsRegular
  deriving DecidableEq

instance : Coe Instant Timestamp := ⟨Instant.toTimestamp⟩

/-- The instant of a date and a time, if the time is one. -/
def Instant.of? (date : Date) (second nano : Nat) : Option Instant :=
  if h : IsTime second nano ∧ IsRegularTime second nano then
    some ⟨⟨date, second, nano, h.1⟩, h.2⟩
  else none

/-- The instant a date and a time of day mean on clocks that run `offset` seconds
ahead; `none` if it leaves the calendar's years. -/
def Instant.ofLocal? (date : Date) (second nano : Nat) (offset : Int) : Option Instant :=
  let s := (second : Int) - offset
  if s < 0 then do Instant.of? (← date.previous?) (s + secondsPerDay).toNat nano
  else if s < secondsPerDay then Instant.of? date s.toNat nano
  else do Instant.of? (← date.next?) (s - secondsPerDay).toNat nano

end ScopedSettings
