/-
Write events, and the channel that keeps the latest of them for observers.

The channel numbers events as they are sent and keeps a bounded number of
them. A receiver knows the number of the event it expects next; one that has
fallen behind is told once how many it has missed, and goes on with the
oldest event kept.
-/
import ScopedSettings.Settings.Basic
import ScopedSettings.Worker

namespace ScopedSettings

/-- A committed write. -/
structure WriteEvent where
  writer : WorkerId
  version : UInt64
  settings : Settings
  writtenAt : Timestamp
  deriving DecidableEq

/-- The latest events, oldest first, and the number sent altogether. -/
structure Channel where
  capacity : Nat
  sent : Nat := 0
  kept : List WriteEvent := []

/-- The number of the event a receiver expects next. -/
structure Receiver where
  next : Nat
  deriving DecidableEq

/-- What a receiver is given. -/
inductive Received
  | event (e : WriteEvent)
  | empty
  | lagged (missed : Nat)
  deriving DecidableEq

namespace Channel

/-- The least power of two that is not below a number. -/
def powerFrom (n : Nat) : Nat :=
  if n ≤ 1 then 1 else Nat.pow 2 ((n - 1).log2 + 1)

/-- A channel that keeps at least the given number of events: as many as the next
power of two. -/
def ofCapacity (n : Nat) : Channel :=
  { capacity := powerFrom n }

def send (c : Channel) (e : WriteEvent) : Channel :=
  let kept := c.kept ++ [e]
  { c with sent := c.sent + 1, kept := kept.drop (kept.length - c.capacity) }

def subscribe (c : Channel) : Receiver :=
  ⟨c.sent⟩

def oldest (c : Channel) : Nat :=
  c.sent - c.kept.length

/-- The next event for a receiver, and the receiver afterwards. -/
def receive (c : Channel) (r : Receiver) : Received × Receiver :=
  if r.next < c.oldest then (.lagged (c.oldest - r.next), ⟨c.oldest⟩)
  else
    match c.kept[r.next - c.oldest]? with
    | some e => (.event e, ⟨r.next + 1⟩)
    | none => (.empty, r)

end Channel
end ScopedSettings
