/-
Requests operation by operation.

What the interface does for a request is a course (`Http.handle`); here it is a conduct,
whose steps are the operations that the course consists of.
-/
import ScopedSettings.Http.Api
import ScopedSettings.Service.Undertaking

namespace ScopedSettings.Http

/-- Serves the settings as the request's worker sees them. -/
def servingSettings (w : WorkerId) : Conduct Response := do
  let answer : Except SettingsError Settings ← Conduct.run (.get w false)
  return readResponse answer

/-- Applies the update in the request's body and serves the settings as they are then. -/
def changingSettings (r : Request) (now : Instant) (w : WorkerId) : Conduct Response := do
  match updateOf r with
  | .error f => return f.response
  | .ok u =>
    let answer : Except SettingsError Settings ← Conduct.run (.write w u now)
    match answer with
    | .error e => return errorResponse e
    | .ok _ => servingSettings w

def servingStats : Conduct Response := do
  let stats : CacheStats ← Conduct.run .stats
  return .json 200 stats.toValue

/-- The conduct of a handler as one unit of work on a worker of its own. -/
def unitOfWork (handler : WorkerId → Conduct Response) : Conduct Response := do
  let w : WorkerId ← Conduct.run .enroll
  Conduct.unit w (handler w)

/-- The conduct of a request at a place. -/
def Route.conduct (p : Route) (r : Request) (now : Instant) : Conduct Response :=
  let reads := r.method == "GET" || r.method == "HEAD"
  match p with
  | .settings =>
    unitOfWork fun w =>
      if reads then servingSettings w
      else if r.method == "PUT" then changingSettings r now w
      else return p.refuseMethod
  | .stats => if reads then servingStats else return p.refuseMethod
  | .health => return if reads then healthResponse else p.refuseMethod

def conduct (r : Request) (now : Instant) : Conduct Response := do
  let place := Route.of? r.path
  if r.method == "OPTIONS" then return preflight place
  else
    match place with
    | none => return share (.bare 404)
    | some p => return share (trim r (← p.conduct r now))

end ScopedSettings.Http
