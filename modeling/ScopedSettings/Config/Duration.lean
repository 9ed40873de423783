/-
Spans of time, to the nanosecond.
-/
import ScopedSettings.Json.Record
import ScopedSettings.Json.Value

namespace ScopedSettings

/-- A span of time. -/
structure Duration where
  nanos : Nat
  deriving DecidableEq, Repr

namespace Duration

def perSecond : Nat := 1000000000

def ofMillis (ms : Nat) : Duration :=
  ⟨ms * 1000000⟩

def seconds (d : Duration) : Nat :=
  d.nanos / perSecond

def subsecond (d : Duration) : Nat :=
  d.nanos % perSecond

def millis (d : Duration) : Nat :=
  d.nanos / 1000000

/-- A fraction's digits without the zeros that end it, behind a point; nothing for zero. -/
def fractionText (width n : Nat) : String :=
  if n == 0 then ""
  else
    let ds := (toString n).toList
    let ds := List.replicate (width - ds.length) '0' ++ ds
    "." ++ String.ofList (ds.reverse.dropWhile (· == '0')).reverse

/-- The span as diagnostics show it: in the largest unit that leaves a whole part. -/
def inspect (d : Duration) : String :=
  if d.nanos ≥ perSecond then
    toString d.seconds ++ fractionText 9 d.subsecond ++ "s"
  else if d.nanos ≥ 1000000 then
    toString (d.nanos / 1000000) ++ fractionText 6 (d.nanos % 1000000) ++ "ms"
  else if d.nanos ≥ 1000 then
    toString (d.nanos / 1000) ++ fractionText 3 (d.nanos % 1000) ++ "µs"
  else toString d.nanos ++ "ns"

def toValue (d : Duration) : Json.Value :=
  .ofMembers [("secs", .natural d.seconds), ("nanos", .natural d.subsecond)]

/-- What has been read of a span. -/
structure Draft where
  seconds : Option Nat := none
  nanos : Option Nat := none

open Json

/-- The span of a draft. More than a second's nanoseconds carry over; the whole
seconds have to fit sixty-four bits. -/
def Draft.duration (d : Draft) : Except Misfit Duration := do
  let seconds ← required "secs" d.seconds
  let nanos ← required "nanos" d.nanos
  let span := seconds * perSecond + nanos
  if span / perSecond < UInt64.size then return ⟨span⟩
  else throw (.refused "overflow deserializing Duration")

def shape : RecordShape Draft Duration where
  title := "struct Duration"
  lengthTitle := "struct Duration"
  empty := {}
  strict := true
  fields := [
    { name := "secs", isGiven := (·.seconds.isSome), optional := false
      read := fun d => (readNatural UInt64.size "u64").map fun v => { d with seconds := some v } },
    { name := "nanos", isGiven := (·.nanos.isSome), optional := false
      read := fun d => (readNatural UInt32.size "u32").map fun v => { d with nanos := some v } }]
  record := Draft.duration

def reader : Reader Duration :=
  shape.read

end Duration
end ScopedSettings
