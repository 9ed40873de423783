/-
The stages of a request.

A request to the settings is one unit of work: a worker of its own, the load at the
start, what it has come for, and the end (`Http.Stage`). A write that is committed is
told of, and then the settings are read as any reader would; so the stages after it are
those of a read, but they know what has been committed (`Visit.own`). The course of a
request goes through these stages (`Http.follows_handle`).
-/
import ScopedSettings.Http.Api
import ScopedSettings.Proofs.Service.Courses
import ScopedSettings.Proofs.Service.Turns

namespace ScopedSettings.Http

def Request.reads (q : Request) : Bool :=
  q.method == "GET" || q.method == "HEAD"

/-- What a request to the settings has come for. -/
inductive Task
  | read
  | write (u : Update) (now : Instant)
  /-- An answer that needs no settings. -/
  | reply (answer : Response)

/-- What a request that changes the settings has come for. -/
def changeOf (q : Request) (now : Instant) : Task :=
  match updateOf q with
  | .error f => .reply f.response
  | .ok u =>
    match u.validate with
    | .error e => .reply (errorResponse e)
    | .ok () => .write u now

def taskOf (q : Request) (now : Instant) : Task :=
  if q.reads then .read
  else if q.method == "PUT" then changeOf q now
  else .reply (Route.refuseMethod .settings)

/-- A request with the worker it has been given. -/
structure Visit where
  request : Request
  worker : WorkerId
  /-- The record that its write has committed, if it has. -/
  own : Option Settings := none

/-- How far a request has come. -/
inductive Stage
  | counting (q : Request)
  | arrived (q : Request) (now : Instant)
  | emptying (v : Visit) (now : Instant)
  | fetching (v : Visit) (now : Instant)
  | keeping (v : Visit) (now : Instant) (s : Settings)
  | writing (v : Visit) (u : Update) (now : Instant)
  | telling (v : Visit) (s : Settings) (now : Instant)
  | announcing (v : Visit) (s : Settings) (now : Instant)
  | reading (v : Visit)
  | missed (v : Visit)
  | ending (v : Visit) (answer : Response)
  | answered (v : Visit) (answer : Response)
  /-- Answered outside any unit of work. -/
  | replied (answer : Response)

namespace Stage

/-- The first stage within a request's unit, once that has started. -/
def begun (v : Visit) (now : Instant) : Stage :=
  match taskOf v.request now with
  | .read => .reading v
  | .write u now => .writing v u now
  | .reply answer => .ending v answer

/-- The stage a request arrives at. -/
def first (q : Request) (now : Instant) : Stage :=
  if q.method == "OPTIONS" then .replied (preflight (Route.of? q.path))
  else
    match Route.of? q.path with
    | none => .replied (share (.bare 404))
    | some .settings => .arrived q now
    | some .stats =>
      if q.reads then .counting q else .replied (share (trim q (Route.refuseMethod .stats)))
    | some .health =>
      .replied (share (trim q (if q.reads then healthResponse else Route.refuseMethod .health)))

def act? : Stage → Option Act
  | .counting _ => some .stats
  | .arrived _ _ => some .enroll
  | .emptying v _ => some (.forget v.worker)
  | .fetching _ _ => some .fetch
  | .keeping v _ s => some (.keep v.worker s)
  | .writing _ u now => some (.commit u now)
  | .telling v s now => some (.notify (Service.eventOf v.worker s now))
  | .announcing v s now => some (.announce (Service.eventOf v.worker s now))
  | .reading v => some (.lookUp v.worker)
  | .missed _ => some .fetch
  | .ending v _ => some (.forget v.worker)
  | .answered _ _ | .replied _ => none

def next : Stage → (a : Act) → a.Answer → Stage
  | .counting q, .stats, counters =>
    .replied (share (trim q (.json 200 (CacheStats.toValue counters))))
  | .arrived request now, .enroll, worker => .emptying { request, worker } now
  | .emptying v now, .forget _, _ => .fetching v now
  | .fetching v now, .fetch, .ok s => .keeping v now s
  | .fetching v now, .fetch, .error _ => .begun v now
  | .keeping v now _, .keep _ _, _ => .begun v now
  | .writing v _ now, .commit _ _, .ok s => .telling { v with own := some s } s now
  | .writing v _ _, .commit _ _, .error e => .ending v (errorResponse e)
  | .telling v s now, .notify _, _ => .announcing v s now
  | .announcing v _ _, .announce _, _ => .reading v
  | .reading v, .lookUp _, some s => .ending v (settingsResponse s)
  | .reading v, .lookUp _, none => .missed v
  | .missed v, .fetch, x => .ending v (readResponse (Course.orDefault x))
  | .ending v answer, .forget _, _ => .answered v answer
  | st, _, _ => st

def answer? : Stage → Option Response
  | .answered v answer => some (share (trim v.request answer))
  | .replied answer => some answer
  | _ => none

/-- The visit that a stage is part of. -/
def visit? : Stage → Option Visit
  | .emptying v _ | .fetching v _ | .keeping v _ _ | .writing v _ _ | .telling v _ _
  | .announcing v _ _ | .reading v | .missed v | .ending v _ | .answered v _ => some v
  | .counting _ | .arrived _ _ | .replied _ => none

end Stage

/-- The stages of requests. -/
def plan : Plan Stage Response where
  act? := Stage.act?
  next := Stage.next
  answer? := Stage.answer?

/-! ## Steps from stage to stage -/

/-- The stages that follow an act, by what it may be answered. -/
inductive Stage.Leads : Stage → Act → Stage → Prop
  | counted (q : Request) (answer : Response) : Leads (.counting q) .stats (.replied answer)
  | enrolled (request : Request) (now : Instant) (worker : WorkerId) :
    Leads (.arrived request now) .enroll (.emptying { request, worker } now)
  | emptied (v : Visit) (now : Instant) :
    Leads (.emptying v now) (.forget v.worker) (.fetching v now)
  | fetched (v : Visit) (now : Instant) (s : Settings) :
    Leads (.fetching v now) .fetch (.keeping v now s)
  | unfetched (v : Visit) (now : Instant) : Leads (.fetching v now) .fetch (.begun v now)
  | kept (v : Visit) (now : Instant) (s : Settings) :
    Leads (.keeping v now s) (.keep v.worker s) (.begun v now)
  | committed (v : Visit) (u : Update) (now : Instant) (s : Settings) :
    Leads (.writing v u now) (.commit u now) (.telling { v with own := some s } s now)
  | uncommitted (v : Visit) (u : Update) (now : Instant) (answer : Response) :
    Leads (.writing v u now) (.commit u now) (.ending v answer)
  | told (v : Visit) (s : Settings) (now : Instant) :
    Leads (.telling v s now) (.notify (Service.eventOf v.worker s now)) (.announcing v s now)
  | announced (v : Visit) (s : Settings) (now : Instant) :
    Leads (.announcing v s now) (.announce (Service.eventOf v.worker s now)) (.reading v)
  | found (v : Visit) (answer : Response) :
    Leads (.reading v) (.lookUp v.worker) (.ending v answer)
  | unfound (v : Visit) : Leads (.reading v) (.lookUp v.worker) (.missed v)
  | refetched (v : Visit) (answer : Response) : Leads (.missed v) .fetch (.ending v answer)
  | ended (v : Visit) (answer : Response) :
    Leads (.ending v answer) (.forget v.worker) (.answered v answer)

/-- An act that is answered leads on. -/
theorem leads_next {st : Stage} {a : Act} (hst : st.act? = some a) (x : a.Answer) :
    st.Leads a (st.next a x) := by
  cases st with
  | answered v answer | replied answer => cases hst
  | counting q =>
    cases hst
    exact .counted q _
  | arrived q now =>
    cases hst
    exact .enrolled q now x
  | emptying v now =>
    cases hst
    exact .emptied v now
  | fetching v now =>
    cases hst
    cases x with
    | error e => exact .unfetched v now
    | ok s => exact .fetched v now s
  | keeping v now s =>
    cases hst
    exact .kept v now s
  | writing v u now =>
    cases hst
    cases x with
    | error e => exact .uncommitted v u now _
    | ok s => exact .committed v u now s
  | telling v s now =>
    cases hst
    exact .told v s now
  | announcing v s now =>
    cases hst
    exact .announced v s now
  | reading v =>
    cases hst
    cases x with
    | none => exact .unfound v
    | some s => exact .found v _
  | missed v =>
    cases hst
    exact .refetched v _
  | ending v answer =>
    cases hst
    exact .ended v answer

/-- A stage after an act is one it leads to, or the same if no answer ever comes. -/
theorem onward_cases {st : Stage} {a : Act} (hst : st.act? = some a)
    (answer : Service.Awaited a.Answer) :
    plan.onward st a answer = st ∨ st.Leads a (plan.onward st a answer) := by
  cases answer with
  | none => exact .inl rfl
  | some answered => exact .inr (leads_next hst answered.2)

/-! ## Courses of requests -/

/-- What is left of a request's course while its handler is at work, and once it is done. -/
def within (v : Visit) (handler : Course Response) : Course Response := do
  let answer ← (do
    let answer ← Course.holding v.worker handler
    Course.finish v.worker
    return answer)
  return share (trim v.request answer)

theorem follows_ending (v : Visit) (answer : Response) :
    plan.Follows (within v (.done answer)) (.ending v answer) :=
  ⟨rfl, rfl, fun _ => ⟨rfl, rfl⟩⟩

theorem follows_missed (v : Visit) :
    plan.Follows (within v (readResponse <$> Course.fetchOrDefault)) (.missed v) :=
  ⟨rfl, rfl, fun x => follows_ending v (readResponse (Course.orDefault x))⟩

theorem follows_reading (v : Visit) :
    plan.Follows (within v (serveSettings v.worker)) (.reading v) := by
  refine ⟨rfl, rfl, fun found => ?_⟩
  cases found with
  | some s => exact follows_ending v (settingsResponse s)
  | none => exact follows_missed v

theorem follows_writing (v : Visit) {u : Update} (hu : u.validate = .ok ()) (now : Instant) :
    plan.Follows
      (within v (do
        match ← Course.write v.worker u now with
        | .error e => return errorResponse e
        | .ok _ => serveSettings v.worker))
      (.writing v u now) := by
  unfold Course.write
  rw [hu]
  refine ⟨rfl, rfl, fun answer => ?_⟩
  cases answer with
  | error e => exact follows_ending v (errorResponse e)
  | ok s =>
    exact ⟨rfl, rfl, fun _ => ⟨rfl, rfl, fun _ => follows_reading { v with own := some s }⟩⟩

/-- The handler of a request to the settings. -/
def settingsHandler (q : Request) (now : Instant) (w : WorkerId) : Course Response :=
  if q.reads then serveSettings w
  else if q.method == "PUT" then changeSettings q now w
  else return Route.refuseMethod .settings

theorem follows_begun (v : Visit) (now : Instant) :
    plan.Follows (within v (settingsHandler v.request now v.worker)) (.begun v now) := by
  unfold settingsHandler Stage.begun taskOf
  by_cases hreads : v.request.reads = true
  · rw [if_pos hreads, if_pos hreads]
    exact follows_reading v
  rw [if_neg hreads, if_neg hreads]
  by_cases hput : (v.request.method == "PUT") = true
  · rw [if_pos hput, if_pos hput]
    unfold changeSettings changeOf
    cases updateOf v.request with
    | error f => exact follows_ending v f.response
    | ok u =>
      dsimp only
      cases hu : u.validate with
      | error e =>
        unfold Course.write
        rw [hu]
        exact follows_ending v (errorResponse e)
      | ok _ => exact follows_writing v hu now
  · rw [if_neg hput, if_neg hput]
    exact follows_ending v (Route.refuseMethod .settings)

theorem follows_arrived (q : Request) (now : Instant) :
    plan.Follows
      (do return share (trim q (← Route.handle .settings q now)))
      (.arrived q now) := by
  refine ⟨rfl, rfl, fun w => ⟨rfl, rfl, fun _ => ⟨rfl, rfl, fun answer => ?_⟩⟩⟩
  cases answer with
  | error e => exact follows_begun ⟨q, w, none⟩ now
  | ok s => exact ⟨rfl, rfl, fun _ => follows_begun ⟨q, w, none⟩ now⟩

/-- The course of a request goes through the stages. -/
theorem follows_handle (q : Request) (now : Instant) :
    plan.Follows (handle q now) (.first q now) := by
  unfold handle Stage.first
  by_cases hoptions : (q.method == "OPTIONS") = true
  · rw [if_pos hoptions, if_pos hoptions]
    exact ⟨rfl, rfl⟩
  rw [if_neg hoptions, if_neg hoptions]
  cases Route.of? q.path with
  | none => exact ⟨rfl, rfl⟩
  | some p =>
    cases p with
    | settings => exact follows_arrived q now
    | health => exact ⟨rfl, rfl⟩
    | stats =>
      unfold Route.handle Request.reads
      dsimp only
      split
      · exact ⟨rfl, rfl, fun _ => ⟨rfl, rfl⟩⟩
      · exact ⟨rfl, rfl⟩

end ScopedSettings.Http
