/-
The HTTP interface of the settings service.

Every request to the settings is one unit of work on a worker of its own: the
record is loaded before the request is handled, and the entry is gone once it
is answered. The health check and the cache counters run outside any unit and
never ask the store. Any origin may read the answers.
-/
import ScopedSettings.Http.MediaType
import ScopedSettings.Http.Message
import ScopedSettings.Service.Access
import ScopedSettings.Settings.Json

namespace ScopedSettings.Http

/-! ## Answers -/

def statusOf : SettingsError → Nat
  | .validation _ => 400
  | .storeUnavailable _ | .recordNotFound => 503
  | .serialization _ | .config _ => 500

def errorResponse (e : SettingsError) : Response :=
  .json (statusOf e) (.ofMembers [("error", .text e.message)])

/-- The header that carries the version of the record served. -/
def versionHeader : String := "x-settings-version"

def settingsResponse (s : Settings) : Response :=
  (Response.json 200 s.toValue).withHeader versionHeader (toString s.version.toNat)

def readResponse : Except SettingsError Settings → Response
  | .ok s => settingsResponse s
  | .error e => errorResponse e

def serviceVersion : String := "0.1.0"

def healthResponse : Response :=
  .json 200 (.ofMembers [("status", .text "healthy"), ("version", .text serviceVersion)])

/-! ## Request bodies -/

/-- The longest body a request can have, in bytes. -/
def longestBody : Nat := 2097152

/-- Why a request's body is refused. -/
inductive BodyFault
  | mediaType
  | tooLong
  | unreadable (p : Json.Problem)

/-- The answer of a refused body. A text that is no JSON is the client's mistake in
another way than JSON that is no update. -/
def BodyFault.response : BodyFault → Response
  | .mediaType => .plainText 415 "Expected request with `Content-Type: application/json`"
  | .tooLong => .plainText 413 "Failed to buffer the request body: length limit exceeded"
  | .unreadable p =>
    match p with
    | .flaw _ _ => .plainText 400 ("Failed to parse the request body as JSON: " ++ p.located)
    | .misfit _ _ =>
      .plainText 422
        ("Failed to deserialize the JSON body into the target type: " ++ p.located)

/-- Does a header value hold visible characters only? -/
def isVisible (value : String) : Bool :=
  value.toList.all fun c => c == '\t' || (32 ≤ c.toNat && c.toNat < 127)

/-- Does a request say that its body is JSON? -/
def saysJson (r : Request) : Bool :=
  match r.header? "content-type" with
  | some value => isVisible value && ((MediaType.parse? value).map MediaType.isJson).getD false
  | none => false

/-- The update in a request's body; what follows it in the body is not looked at. -/
def updateOf (r : Request) : Except BodyFault Update :=
  if !saysJson r then .error .mediaType
  else if longestBody < r.body.size then .error .tooLong
  else
    match Update.reader.leading (Json.tokensIn r.body) with
    | .ok u => .ok u
    | .error p => .error (.unreadable p)

/-! ## Handlers -/

/-- Serves the settings as the request's worker sees them. -/
def serveSettings (w : WorkerId) : Course Response := do
  return readResponse (← Course.get w false)

/-- Applies the update in the request's body and serves the settings as the request's
worker sees them then. -/
def changeSettings (r : Request) (now : Instant) (w : WorkerId) : Course Response := do
  match updateOf r with
  | .error f => return f.response
  | .ok u =>
    match ← Course.write w u now with
    | .error e => return errorResponse e
    | .ok _ => serveSettings w

def serveStats : Course Response := do
  let stats : CacheStats ← Course.act Act.stats
  return .json 200 stats.toValue

/-- Runs a handler as one unit of work on a worker of its own. -/
def asUnit (handler : WorkerId → Course Response) : Course Response := do
  let w : WorkerId ← Course.act Act.enroll
  Course.unit w (handler w)

/-! ## Routes -/

/-- The places of the interface. -/
inductive Route
  | settings
  | stats
  | health
  deriving DecidableEq

def Route.of? : String → Option Route
  | "/api/settings" => some .settings
  | "/api/settings/cache" => some .stats
  | "/health" => some .health
  | _ => none

def Route.allowed : Route → String
  | .settings => "GET,HEAD,PUT"
  | .stats | .health => "GET,HEAD"

/-- The answer where a place does not admit the method. -/
def Route.refuseMethod (p : Route) : Response :=
  (Response.bare 405).withHeader "allow" p.allowed

/-- Handles a request at a place; `GET` and `HEAD` are handled alike. -/
def Route.handle (p : Route) (r : Request) (now : Instant) : Course Response :=
  let reads := r.method == "GET" || r.method == "HEAD"
  match p with
  | .settings =>
    asUnit fun w =>
      if reads then serveSettings w
      else if r.method == "PUT" then changeSettings r now w
      else return p.refuseMethod
  | .stats => if reads then serveStats else return p.refuseMethod
  | .health => return if reads then healthResponse else p.refuseMethod

/-! ## Sharing across origins -/

/-- The headers that the answer to another origin depends on. -/
def varyingHeaders : String :=
  "origin, access-control-request-method, access-control-request-headers"

/-- Lets any origin read a response. -/
def share (r : Response) : Response :=
  ((r.withHeader "access-control-allow-origin" "*").withHeader
    "access-control-expose-headers" "*").withHeader "vary" varyingHeaders

/-- The answer to a question about sharing, which never reaches a handler. -/
def preflight (p : Option Route) : Response where
  status := 200
  headers :=
    [("access-control-allow-origin", "*"), ("access-control-allow-methods", "*"),
      ("access-control-allow-headers", "*"), ("vary", varyingHeaders)] ++
    match p with
    | some p => [("allow", p.allowed)]
    | none => []

/-- The response without its body where the request asks for none. -/
def trim (r : Request) (answer : Response) : Response :=
  if r.method == "HEAD" then { answer with body := "" } else answer

def handle (r : Request) (now : Instant) : Course Response := do
  let place := Route.of? r.path
  if r.method == "OPTIONS" then return preflight place
  else
    match place with
    | none => return share (.bare 404)
    | some p => return share (trim r (← p.handle r now))

end ScopedSettings.Http
