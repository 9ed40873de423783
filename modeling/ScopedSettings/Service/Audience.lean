/-
A service before its audience: callers, listeners, and observers of its channel.

Callers do operations on the service, each at some step of its course. A turn carries the
next act of one of them out, or lets a caller begin, a listener be registered, an observer
subscribe or look for an event; nothing is said about whose turn comes next. A caller can be
dropped wherever it waits, be it for the answer to an act that has been carried out already;
only from telling its listeners to sending its event it does not wait.
-/
import ScopedSettings.Service.Undertaking

namespace ScopedSettings

/-- The name under which a listener keeps its notes. -/
def Listener.name? : Listener → Option String
  | .invalidation => none
  | .recorder name | .growing name => some name

/-- How many of the listeners keep their notes under a name. -/
def Listener.named (name : String) (ls : List Listener) : Nat :=
  ls.countP fun l => l.name? == some name

/-- The events noted under a name, in order. -/
def Service.heard (r : Service β) (name : String) : List WriteEvent :=
  (r.notes.filter fun n => n.listener == name).map Note.event

/-- The event that an act tells listeners of. -/
def Act.told? : Act → Option WriteEvent
  | .notify e => some e
  | _ => none

/-- The event that an act sends to observers. -/
def Act.sent? : Act → Option WriteEvent
  | .announce e => some e
  | _ => none

def Act.publishes : Act → Bool
  | .notify _ | .announce _ => true
  | _ => false

/-- The record that comes with a reply, if one does. -/
def Reply.record? : Reply → Option Settings
  | .after _ (.ok s) => some s
  | _ => none

/-- The record that an act, carried out now, commits. -/
def Service.made? [Backend β] (r : Service β) : Act → Option Settings
  | .commit u now => (Backend.commit r.backend u now).2.record?
  | _ => none

/-- How far a caller has come with an operation. -/
inductive Standing (α : Type)
  | active (rest : Course α)
  /-- It waits for an answer that never comes. -/
  | waiting
  | dropped

/-- How far a course has come once an act is answered, or is not. -/
def Standing.onward (next : γ → Course α) : Service.Awaited γ → Standing α
  | some (_, x) => .active (next x)
  | none => .waiting

/-- A caller with its operation. -/
structure Caller where
  job : Job
  standing : Standing job.Answer

namespace Caller

/-- The act that a caller is to carry out next. -/
def next? (c : Caller) : Option Act :=
  match c.standing with
  | .active (.step call _) => some call.act
  | _ => none

/-- Is a caller between its commit and the end of its publication? -/
def isPublishing (c : Caller) : Bool :=
  c.next?.any Act.publishes

/-- Can a caller be dropped where it stands? -/
def waits (c : Caller) : Bool :=
  match c.standing, c.next? with
  | .waiting, _ => true
  | _, some (.announce _) | _, none => false
  | _, some _ => true

end Caller

/-- An observer of the channel: its receiver, and what it has been given since it subscribed. -/
structure Observer where
  receiver : Receiver
  received : List Received := []

def Received.event? : Received → Option WriteEvent
  | .event e => some e
  | .empty | .lagged _ => none

/-- The events an observer has been given, in order. -/
def Observer.events (o : Observer) : List WriteEvent :=
  o.received.filterMap Received.event?

/-- An observer once it has asked a channel for the next event. -/
def Observer.ask (c : Channel) (o : Observer) : Observer :=
  let (given, receiver) := c.receive o.receiver
  { receiver, received := o.received ++ [given] }

/-- A service with its callers and observers. -/
structure Audience (β : Type) where
  service : Service β
  callers : List Caller := []
  observers : List Observer := []

/-- What can happen next; `ξ` are the changes to the backend from outside. -/
inductive AudienceTurn (ξ : Type)
  | begin (j : Job)
  | act (i : Nat)
  | drop (i : Nat)
  | register (l : Listener)
  | subscribe
  | poll (i : Nat)
  | outside (x : ξ)

/-- Listeners told of a write: by which caller, of what, and which there were. -/
structure Telling where
  caller : Nat
  event : WriteEvent
  listeners : List Listener

/-- What one of the callers has of a list kept for all. -/
def ofCaller (i : Nat) (xs : List (Nat × γ)) : List γ :=
  (xs.filter fun x => x.1 == i).map Prod.snd

namespace Audience

variable {β γ ξ : Type}

/-- The audience of a store whose channel is new, before anyone has begun. -/
def opened (r : Service β) (capacity : Nat) : Audience β where
  service := { r with channel := .ofCapacity capacity }

/-- The act that a turn carries out, with whose it is. -/
def act? (a : Audience β) : AudienceTurn ξ → Option (Nat × Act)
  | .act i => (a.callers[i]?.bind Caller.next?).map (i, ·)
  | _ => none

def telling? (a : Audience β) (t : AudienceTurn ξ) : Option Telling :=
  (a.act? t).bind fun x => x.2.told?.map fun e => ⟨x.1, e, a.service.listeners⟩

/-- The event that a turn sends to the observers, with whose it is. -/
def announcement? (a : Audience β) (t : AudienceTurn ξ) : Option (Nat × WriteEvent) :=
  (a.act? t).bind fun x => x.2.sent?.map (x.1, ·)

variable [Backend β]

/-- The record that a turn commits, with whose it is. -/
def commitment? (a : Audience β) (t : AudienceTurn ξ) : Option (Nat × Settings) :=
  (a.act? t).bind fun x => (a.service.made? x.2).map (x.1, ·)

/-- A caller carries its next act out. -/
def proceed (a : Audience β) (i : Nat) : Audience β :=
  match a.callers[i]? with
  | some ⟨job, .active (.step call next)⟩ =>
    let (answer, service) := a.service.carryOut call.act
    { a with
      service
      callers := a.callers.set i ⟨job, .onward next answer⟩ }
  | _ => a

omit [Backend β] in
/-- A caller is dropped where it waits, and the units that it holds are abandoned. -/
def drop (a : Audience β) (i : Nat) : Audience β :=
  match a.callers[i]? with
  | some c =>
    if c.waits then
      { a with
        service := a.service.abandon c.job.held
        callers := a.callers.set i ⟨c.job, .dropped⟩ }
    else a
  | none => a

omit [Backend β] in
/-- An observer asks the channel for the next event. -/
def poll (a : Audience β) (i : Nat) : Audience β :=
  { a with observers := a.observers.modify i (Observer.ask a.service.channel) }

def turn (change : ξ → β → β) (a : Audience β) : AudienceTurn ξ → Audience β
  | .begin j => { a with callers := a.callers ++ [⟨j, .active j.undertaking.course⟩] }
  | .act i => a.proceed i
  | .drop i => a.drop i
  | .register l => { a with service := a.service.addListener l }
  | .subscribe => { a with observers := a.observers ++ [⟨a.service.channel.subscribe, []⟩] }
  | .poll i => a.poll i
  | .outside x => { a with service := { a.service with backend := change x a.service.backend } }

def after (change : ξ → β → β) (a : Audience β) (ts : List (AudienceTurn ξ)) : Audience β :=
  ts.foldl (turn change) a

/-- What turns give, one after another. -/
def gather (change : ξ → β → β) (f : Audience β → AudienceTurn ξ → Option γ) (a : Audience β) :
    List (AudienceTurn ξ) → List γ
  | [] => []
  | t :: ts => (f a t).toList ++ (a.turn change t).gather change f ts

def tellings (change : ξ → β → β) (a : Audience β) (ts : List (AudienceTurn ξ)) : List Telling :=
  a.gather change telling? ts

/-- The events listeners were told of, in order, with whose they are. -/
def told (change : ξ → β → β) (a : Audience β) (ts : List (AudienceTurn ξ)) :
    List (Nat × WriteEvent) :=
  (a.tellings change ts).map fun τ => (τ.caller, τ.event)

/-- The events sent to the observers, in order, with whose they are. -/
def announced (change : ξ → β → β) (a : Audience β) (ts : List (AudienceTurn ξ)) :
    List (Nat × WriteEvent) :=
  a.gather change announcement? ts

/-- The records committed, in order, with whose they are. -/
def committed (change : ξ → β → β) (a : Audience β) (ts : List (AudienceTurn ξ)) :
    List (Nat × Settings) :=
  a.gather change commitment? ts

end Audience
end ScopedSettings
