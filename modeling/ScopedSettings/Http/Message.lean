/-
Requests and responses.
-/
import ScopedSettings.Json.Value

namespace ScopedSettings.Http

/-- A request. -/
structure Request where
  method : String
  target : String
  headers : List (String × String) := []
  body : ByteArray := .empty

/-- A response. -/
structure Response where
  status : Nat
  headers : List (String × String) := []
  body : String := ""
  deriving DecidableEq

namespace Request

/-- The characters of a scheme, such as `https`. -/
def isSchemeChar (c : Char) : Bool :=
  c.isAlphanum || c == '+' || c == '-' || c == '.' || c == '~'

/-- Does a character end the host, and begin the path, the query or the fragment? -/
def endsHost (c : Char) : Bool :=
  c == '/' || c == '?' || c == '#'

/-- A target without the scheme and the host, where it names them. -/
def localPart (target : List Char) : List Char :=
  match target.dropWhile isSchemeChar with
  | ':' :: '/' :: '/' :: rest => rest.dropWhile fun c => !endsHost c
  | _ => target

/-- The path of a request: its target from behind the host up to the query. -/
def path (r : Request) : String :=
  String.ofList ((localPart r.target.toList).takeWhile fun c => c != '?' && c != '#')

/-- The value of a header, whatever the case of its name. -/
def header? (r : Request) (name : String) : Option String :=
  (r.headers.find? fun h => h.1.map Char.toLower == name).map Prod.snd

end Request

namespace Response

def withHeader (r : Response) (name value : String) : Response :=
  { r with headers := r.headers ++ [(name, value)] }

def bare (status : Nat) : Response :=
  { status }

def json (status : Nat) (v : Json.Value) : Response :=
  { status, headers := [("content-type", "application/json")], body := v.compact }

def plainText (status : Nat) (text : String) : Response :=
  { status, headers := [("content-type", "text/plain; charset=utf-8")], body := text }

/-- Does the status stand for success? -/
def isSuccess (r : Response) : Bool :=
  200 ≤ r.status && r.status < 300

end Response
end ScopedSettings.Http
