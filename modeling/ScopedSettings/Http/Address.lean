/-
The address a server listens on.

Ports below 1024 other than zero are reserved: a service is refused them.
-/
import ScopedSettings.Config.Variables

namespace ScopedSettings.Http

/-- An address. -/
structure Address where
  host : String := "127.0.0.1"
  port : Nat := 8080
  deriving DecidableEq, Repr

namespace Address

def text (a : Address) : String :=
  a.host ++ ":" ++ toString a.port

def hostVariable : String := "WARDEN_HOST"

def portVariable : String := "WARDEN_PORT"

/-- The address of a set of variables. A port that is none is passed over. -/
def ofVariables (vs : Variables) : Address :=
  let default : Address := {}
  { host := (vs.get? hostVariable).getD default.host
    port := ((vs.get? portVariable).bind (Variables.natural? UInt16.size)).getD default.port }

/-- Is this a number of a dotted address? -/
def isOctet (cs : List Char) : Bool :=
  !cs.isEmpty && cs.length ≤ 3 && (cs.length == 1 || cs.head? != some '0') &&
    ((Variables.natural? 256 (String.ofList cs)).isSome && cs.all Char.isDigit)

/-- Is a host a dotted address? -/
def isDotted (host : String) : Bool :=
  match host.toList.splitOn '.' with
  | [a, b, c, d] => isOctet a && isOctet b && isOctet c && isOctet d
  | _ => false

/-- Why a server cannot listen on an address. -/
inductive Refusal
  | unknownHost
  | reservedPort
  deriving DecidableEq, Repr

def Refusal.message : Refusal → String
  | .unknownHost => "failed to lookup address information: Name or service not known"
  | .reservedPort => "Permission denied (os error 13)"

/-- The least port that is not reserved. -/
def leastFreePort : Nat := 1024

/-- The reason why a server cannot listen on the address, if there is one. -/
def refusal? (a : Address) : Option Refusal :=
  if !(isDotted a.host || a.host == "localhost") then some .unknownHost
  else if 0 < a.port ∧ a.port < leastFreePort then some .reservedPort
  else none

end Address
end ScopedSettings.Http
