/-
Reading values from tokens.

A reader takes the tokens that start with a value and gives the value and the
tokens behind it, or the first problem in reading order. `skip` passes over a
value of any depth without looking at what it says: it asks only that the
value is well formed, and so accepts texts that reading would refuse (lone
surrogates, bytes that are no characters, numbers out of range).
-/
import ScopedSettings.Json.Number

namespace ScopedSettings.Json

/-- What a reader answers: the value and the tokens behind it, or a problem. -/
abbrev Result (α : Type) := Except Problem (α × List Token)

abbrev Reader (α : Type) := List Token → Result α

def fail (f : Flaw) : Except Problem α :=
  .error (.flaw [] f)

def refuse (m : Misfit) : Except Problem α :=
  .error (.misfit [] m)

def within (s : PathStep) : Except Problem α → Except Problem α
  | .ok a => .ok a
  | .error p => .error (p.within s)

/-- A value passed on through a function that may refuse it. -/
def Reader.refine (r : Reader α) (f : α → Except Misfit β) : Reader β := fun ts =>
  match r ts with
  | .error p => .error p
  | .ok (a, rest) =>
    match f a with
    | .ok b => .ok (b, rest)
    | .error m => refuse m

def Reader.map (f : α → β) (r : Reader α) : Reader β :=
  r.refine fun a => .ok (f a)

/-! ## Texts -/

/-- The fault a text's spelling ends with, if it does not end at its quote. -/
def Ending.flaw? : Ending → Option Flaw
  | .quote | .notUnicode => none
  | .endOfInput => some .endInText
  | .controlCharacter => some .controlCharacter
  | .unknownEscape => some .invalidEscape
  | .badHexadecimal => some .invalidEscape

/-- The fault at the end of a text that is read. -/
def Ending.readFlaw? : Ending → Option Flaw
  | .notUnicode => some .notUnicode
  | e => e.flaw?

/-- The first unit of a surrogate pair. -/
def isLeading (n : Nat) : Bool := 0xD800 ≤ n && n < 0xDC00

def isTrailing (n : Nat) : Bool := 0xDC00 ≤ n && n < 0xE000

def pairCode (n m : Nat) : Nat :=
  0x10000 + (n - 0xD800) * 0x400 + (m - 0xDC00)

/-- What is wrong when a leading surrogate is the last piece of a text: an escape
must follow, so a text cut short or a bad hexadecimal digit is reported as such. -/
def Ending.afterLeading : Ending → Flaw
  | .endOfInput => .endInText
  | .badHexadecimal => .invalidEscape
  | .quote | .controlCharacter | .unknownEscape | .notUnicode => .unexpectedEscapeEnd

def decodePieces (ending : Ending) : List Piece → Except Flaw (List Char)
  | [] =>
    match ending.readFlaw? with
    | none => .ok []
    | some f => .error f
  | .char c :: rest => (decodePieces ending rest).map (c :: ·)
  | [.unit n] =>
    if isTrailing n then .error .loneSurrogate
    else if isLeading n then .error ending.afterLeading
    else (decodePieces ending []).map (Char.ofNat n :: ·)
  | .unit n :: .char c :: rest =>
    if isTrailing n then .error .loneSurrogate
    else if isLeading n then .error .unexpectedEscapeEnd
    else (decodePieces ending (.char c :: rest)).map (Char.ofNat n :: ·)
  | .unit n :: .unit m :: rest =>
    if isTrailing n then .error .loneSurrogate
    else if isLeading n then
      if isTrailing m then (decodePieces ending rest).map (Char.ofNat (pairCode n m) :: ·)
      else .error .loneSurrogate
    else (decodePieces ending (.unit m :: rest)).map (Char.ofNat n :: ·)

def Spelling.decode (s : Spelling) : Except Flaw String :=
  (decodePieces s.ending s.pieces).map String.ofList

/-! ## Mismatches -/

/-- The problem of a value that is not what was expected. The value is read as
far as one token goes, so its own fault is reported first. -/
def mismatch (expected : String) : List Token → Problem
  | [] => .flaw [] .endInValue
  | .null :: _ => .misfit [] (.wrongType .null expected)
  | .bool b :: _ => .misfit [] (.wrongType (.bool b) expected)
  | .numeral n :: _ =>
    match n.read with
    | .ok v => .misfit [] (.wrongType v.found expected)
    | .error f => .flaw [] f
  | .text s :: _ =>
    match s.decode with
    | .ok t => .misfit [] (.wrongType (.text t) expected)
    | .error f => .flaw [] f
  | .objectOpen :: _ => .misfit [] (.wrongType .object expected)
  | .listOpen :: _ => .misfit [] (.wrongType .list expected)
  | .brokenWord true :: _ => .flaw [] .endInValue
  | .brokenWord false :: _ => .flaw [] .expectedWord
  | .objectClose :: _ | .listClose :: _ | .comma :: _ | .colon :: _ | .stray :: _ =>
    .flaw [] .expectedValue

/-! ## Plain values -/

/-- Reads `null`. -/
def readNull (expected : String) : Reader Unit
  | .null :: rest => .ok ((), rest)
  | ts => .error (mismatch expected ts)

/-- Reads `true` or `false`. -/
def readBool : Reader Bool
  | .bool b :: rest => .ok (b, rest)
  | ts => .error (mismatch "a boolean" ts)

def readText (expected : String) : Reader String
  | .text s :: rest =>
    match s.decode with
    | .ok t => .ok (t, rest)
    | .error f => fail f
  | ts => .error (mismatch expected ts)

def readNatural (bound : Nat) (expected : String) : Reader Nat
  | .numeral n :: rest =>
    match n.read with
    | .ok (.natural k) =>
      if k < bound then .ok (k, rest) else refuse (.wrongValue (.integer k) expected)
    | .ok (.negative k) => refuse (.wrongValue (.integer k) expected)
    | .ok (.float x) => refuse (.wrongType (.float x) expected)
    | .error f => fail f
  | ts => .error (mismatch expected ts)

/-- Reads a value or `null`, which stands for none. -/
def Reader.nullable (r : Reader α) : Reader (Option α)
  | .null :: rest => .ok (none, rest)
  | ts => (r.map some) ts

/-! ## Skipping -/

/-- The containers a skipped value can lie in. -/
inductive Container
  | list
  | object
  deriving DecidableEq, Repr

/-- What the next token of a skipped value has to be. -/
inductive Awaited
  | value
  | itemOrEnd
  | keyOrEnd
  | key
  | colon
  | commaOrEnd
  deriving DecidableEq, Repr

/-- What the end of the input means in a container. -/
def Container.endFlaw : Container → Flaw
  | .list => .endInList
  | .object => .endInObject

/-- What a token other than a comma or the end means behind an item. -/
def Container.separatorFlaw : Container → Flaw
  | .list => .expectedListEnd
  | .object => .expectedObjectEnd

/-- The fault of a numeral that is skipped: its value is not looked at. -/
def Numeral.skipFlaw? (n : Numeral) : Option Flaw :=
  n.fault.map fun _ => .invalidNumber

/-- Where a skip goes on behind an item: nowhere if the item was the outermost one. -/
def afterItem : List Container → Option (Awaited × List Container)
  | [] => none
  | c :: outer => some (.commaOrEnd, c :: outer)

/-- A token where an item is awaited, `outer` being the containers entered and
not yet left, the innermost first. -/
def skipItem (outer : List Container) : Token → Except Flaw (Option (Awaited × List Container))
  | .null | .bool _ => .ok (afterItem outer)
  | .numeral n =>
    match n.skipFlaw? with
    | none => .ok (afterItem outer)
    | some f => .error f
  | .text s =>
    match s.ending.flaw? with
    | none => .ok (afterItem outer)
    | some f => .error f
  | .objectOpen => .ok (some (.keyOrEnd, .object :: outer))
  | .listOpen => .ok (some (.itemOrEnd, .list :: outer))
  | .brokenWord true => .error .endInValue
  | .brokenWord false => .error .expectedWord
  | .objectClose | .listClose | .comma | .colon | .stray => .error .expectedValue

def skipKey (outer : List Container) : Token → Except Flaw (Option (Awaited × List Container))
  | .text s =>
    match s.ending.flaw? with
    | none => .ok (some (.colon, outer))
    | some f => .error f
  | _ => .error .keyNotText

/-- A token behind an item of a container. -/
def skipSeparator (c : Container) (outer : List Container) :
    Token → Except Flaw (Option (Awaited × List Container))
  | .comma => .ok (some (match c with | .list => .value | .object => .key, c :: outer))
  | .listClose => if c = .list then .ok (afterItem outer) else .error c.separatorFlaw
  | .objectClose => if c = .object then .ok (afterItem outer) else .error c.separatorFlaw
  | _ => .error c.separatorFlaw

/-- One token of a skip: where it goes on, `none` at the end of the outermost item. -/
def skipToken : Awaited → List Container → Token → Except Flaw (Option (Awaited × List Container))
  | .value, outer, t => skipItem outer t
  | .itemOrEnd, outer, t => if t = .listClose then .ok (afterItem outer.tail) else skipItem outer t
  | .keyOrEnd, outer, t => if t = .objectClose then .ok (afterItem outer.tail) else skipKey outer t
  | .key, outer, t => skipKey outer t
  | .colon, outer, t => if t = .colon then .ok (some (.value, outer)) else .error .expectedColon
  | .commaOrEnd, c :: outer, t => skipSeparator c outer t
  | .commaOrEnd, [], _ => .error .expectedValue

def Awaited.endFlaw : Awaited → List Container → Flaw
  | .value, _ => .endInValue
  | .itemOrEnd, _ => .endInList
  | .keyOrEnd, _ | .key, _ | .colon, _ => .endInObject
  | .commaOrEnd, c :: _ => c.endFlaw
  | .commaOrEnd, [] => .endInValue

/-- The tokens behind the item that is being skipped. -/
def skipFrom (awaited : Awaited) (outer : List Container) :
    List Token → Except Problem (List Token)
  | [] => fail (awaited.endFlaw outer)
  | t :: rest =>
    match skipToken awaited outer t with
    | .error f => fail f
    | .ok none => .ok rest
    | .ok (some (awaited, outer)) => skipFrom awaited outer rest

/-- The tokens behind one value, whatever it holds. -/
def skip (ts : List Token) : Except Problem (List Token) :=
  skipFrom .value [] ts

/-! ## Whole texts -/

/-- Reads a text that holds one value and nothing else. -/
def Reader.whole (r : Reader α) (ts : List Token) : Except Problem α :=
  match r ts with
  | .error p => .error p
  | .ok (a, []) => .ok a
  | .ok (_, _ :: _) => fail .trailingCharacters

/-- Reads the value a text starts with, whatever follows it. -/
def Reader.leading (r : Reader α) (ts : List Token) : Except Problem α :=
  (r ts).map Prod.fst

end ScopedSettings.Json
