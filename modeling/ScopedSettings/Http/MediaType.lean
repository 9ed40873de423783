/-
Media types, as far as telling JSON from the rest takes: a type, a subtype
with an optional suffix behind its last plus sign, and parameters, which have
to be well formed but are not kept.
-/
import ScopedSettings.Text.Blank

namespace ScopedSettings.Http

/-- A media type in lower case. -/
structure MediaType where
  type : List Char
  subtype : List Char
  suffix : Option (List Char)

namespace MediaType

def isTokenChar (c : Char) : Bool :=
  c.isAlphanum || c ∈ ['!', '#', '$', '%', '&', '\'', '*', '+', '-', '.', '^', '_', '`', '|', '~']

def isQuotedChar (c : Char) : Bool :=
  31 < c.toNat && c.toNat != 127

/-- What follows a token that ends in a mark, the token not being empty. -/
def afterName? (mark : Char) (cs : List Char) : Option (List Char) :=
  match cs.takeWhile isTokenChar, cs.dropWhile isTokenChar with
  | _ :: _, c :: rest => if c == mark then some rest else none
  | _, _ => none

/-- What follows a quoted value: blanks, and a semicolon unless the text ends. A quote
right after the opening one is part of the value. -/
def afterQuoted? (first : Bool) : List Char → Option (List Char)
  | [] => none
  | c :: cs =>
    if c == '"' && !first then
      match cs.dropWhile (· == ' ') with
      | [] => some []
      | ';' :: rest => some rest
      | _ => none
    else if isQuotedChar c then afterQuoted? false cs
    else none

/-- What follows a parameter's value and the semicolon behind it. -/
def afterValue? : List Char → Option (List Char)
  | '"' :: rest => afterQuoted? true rest
  | cs =>
    match cs.takeWhile isTokenChar, cs.dropWhile isTokenChar with
    | _, [] => some []
    | _ :: _, ';' :: rest => some rest
    | _, _ => none

/-- Are these well-formed parameters? Blanks may stand before each. At most `fuel`
parameters are read. -/
def areParameters : Nat → List Char → Bool
  | 0, _ => false
  | fuel + 1, cs =>
    match cs.dropWhile (· == ' ') with
    | [] => true
    | cs =>
      match afterName? '=' cs with
      | none => false
      | some rest =>
        match afterValue? rest with
        | none => false
        | some rest => areParameters fuel rest

/-- A subtype cut at its last plus sign, unless that is its first character. -/
def cutSuffix (cs : List Char) : List Char × Option (List Char) :=
  match (cs.drop 1).reverse.dropWhile (· != '+') with
  | [] => (cs, none)
  | _ :: before =>
    (cs.take 1 ++ before.reverse, some ((cs.drop 1).reverse.takeWhile (· != '+')).reverse)

def parse? (text : String) : Option MediaType :=
  match afterName? '/' text.toList with
  | none => none
  | some cs =>
    let type := (text.toList.takeWhile isTokenChar).map Char.toLower
    let (subtype, suffix) := cutSuffix ((cs.takeWhile isTokenChar).map Char.toLower)
    match cs.dropWhile isTokenChar with
    | [] => some { type, subtype, suffix }
    | ';' :: rest =>
      if !subtype.isEmpty && areParameters (rest.length + 1) rest then
        some { type, subtype, suffix }
      else none
    | _ :: _ => none

/-- Does the media type mean JSON? -/
def isJson (m : MediaType) : Bool :=
  m.type == "application".toList &&
    (m.subtype == "json".toList || m.suffix == some "json".toList)

end MediaType
end ScopedSettings.Http
