/-
A service with all its callers: operations and programs of its own process, and requests.

Callers take turns operation by operation. A request that has arrived does its operations
one at a time, others having their turns between them; where an answer does not come in
time the request waits for ever, or is dropped and abandons the units it holds.
-/
import ScopedSettings.Http.Conduct
import ScopedSettings.Program.Stepwise
import ScopedSettings.Service.Runs

namespace ScopedSettings.Http

/-- A request that is being handled. -/
structure Handling where
  conduct : Conduct Response
  /-- Does the request wait for an answer that has not come in time? -/
  waits : Bool := false

/-- A session on a service, and the requests to the same service; `none` stands for one that
has been dropped. -/
structure Reception (β : Type) where
  session : Session β
  requests : List (Option Handling) := []

/-- What can happen at a reception. -/
inductive Deed (ξ : Type)
  | move (m : Move ξ)
  | arrive (q : Request) (now : Instant)
  /-- A request does its next operation, and waits so long for its outcome. -/
  | proceed (i : Nat) (patience : Option Duration)
  /-- A request that waits is dropped. -/
  | drop (i : Nat)

namespace Reception

variable {β ξ : Type}

/-- A reception on a service, before anything has happened at it. -/
def opened (r : Service β) (thread : WorkerId) : Reception β :=
  { session := .opened r thread }

def service (t : Reception β) : Service β :=
  t.session.service

def withService (t : Reception β) (r : Service β) : Reception β :=
  { t with session := { t.session with service := r } }

def handling? (t : Reception β) (i : Nat) : Option Handling :=
  t.requests[i]?.join

def setHandling (t : Reception β) (i : Nat) (h : Option Handling) : Reception β :=
  { t with requests := t.requests.set i h }

/-- The operation that a request is to do next, unless it waits or has been answered. -/
def next? (t : Reception β) (i : Nat) : Option Undertaking :=
  match t.handling? i with
  | some ⟨.step job _, false⟩ => some job.undertaking
  | _ => none

/-- The workers whose units are abandoned if a request is dropped now. -/
def heldBy (t : Reception β) (i : Nat) : List WorkerId :=
  match t.handling? i with
  | some ⟨.step job _, true⟩ => job.held
  | _ => []

def dropRequest (t : Reception β) (i : Nat) : Reception β :=
  match t.handling? i with
  | some ⟨.step job _, true⟩ => (t.withService (t.service.abandon job.held)).setHandling i none
  | _ => t

variable [Backend β]

def proceed (t : Reception β) (i : Nat) (patience : Option Duration) : Reception β :=
  match t.handling? i with
  | some ⟨.step job next, false⟩ =>
    let (answer, r) := t.service.perform job.undertaking.course patience
    (t.withService r).setHandling i <|
      match answer with
      | some (x, _) => some ⟨next x, false⟩
      | none => some ⟨.step job next, true⟩
  | _ => t

/-- A deed done; operations have outcomes. -/
def step (change : ξ → β → β) : Deed ξ → Reception β → Option Outcome × Reception β
  | .move m, t =>
    let (outcome, session) := (Session.move change m).alone t.session
    (outcome, { t with session })
  | .arrive q now, t => (none, { t with requests := t.requests ++ [some ⟨conduct q now, false⟩] })
  | .proceed i patience, t => (none, t.proceed i patience)
  | .drop i, t => (none, t.dropRequest i)

/-- How programs of nested blocks and lanes are deeds. -/
def stepwise : Stepwise (Deed ξ) (Option Outcome) where
  enter w := .move (.enter w)
  leave := .move .leave
  start w := .move (.use none (.start w))
  begun outcome := outcome.isSome
  finish w := .move (.use none (.succeed w))
  failure? outcome := outcome.bind Outcome.failure?

/-- The runs of a reception, with their deeds: deeds one after another, and programs whose
lanes take turns deed by deed. -/
abbrev Runs (change : ξ → β → β) (t : Reception β) (ds : List (Deed ξ)) (t' : Reception β) : Prop :=
  stepwise.Runs (step change) t ds t'

end Reception
end ScopedSettings.Http
