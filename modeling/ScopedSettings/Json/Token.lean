/-
The tokens of a JSON text.

A text is cut into tokens before anything is read from it. A token that is
not well formed keeps what was wrong with it, so that a reader reports the
fault only when it comes to that token: the first fault in reading order
wins, whatever stands behind it. Numbers and texts keep their spelling, for
skipping one asks less of it than reading it.

What comes as bytes need not be text. A byte that is part of no character starts no token,
and ends a number or a word as any other character would; inside a text it is a fault of
the text as a whole, which is reported where the text is read, after all other faults in
it (`Ending.notUnicode`).
-/

namespace ScopedSettings.Json

/-- One step of a text's spelling: a character, written as itself or by a short
escape, or a UTF-16 code unit written as `\u` and four hexadecimal digits. -/
inductive Piece
  | char (c : Char)
  | unit (n : Nat)
  deriving DecidableEq, Repr

/-- How the spelling of a text ends: at its closing quote, or at a fault. -/
inductive Ending
  | quote
  | endOfInput
  | controlCharacter
  | unknownEscape
  | badHexadecimal
  /-- The closing quote of a text that not all bytes of are part of a character. -/
  | notUnicode
  deriving DecidableEq, Repr

/-- A text as it is spelled. -/
structure Spelling where
  pieces : List Piece
  ending : Ending
  deriving DecidableEq, Repr

/-- What is wrong with a numeral: the input ends inside it, or a character does
not belong where it stands. -/
inductive NumeralFault
  | endOfInput
  | malformed
  deriving DecidableEq, Repr

/-- A number as it is spelled, by its decimal digits. -/
structure Numeral where
  negative : Bool
  whole : List Nat
  fraction : Option (List Nat)
  exponent : Option (Bool × List Nat)
  fault : Option NumeralFault
  deriving DecidableEq, Repr

/-- The words of the format. -/
inductive Token
  | null
  | bool (b : Bool)
  | numeral (n : Numeral)
  | text (s : Spelling)
  | objectOpen
  | objectClose
  | listOpen
  | listClose
  | comma
  | colon
  /-- The start of `null`, `true` or `false`, cut off by the input's end or by another character. -/
  | brokenWord (atEnd : Bool)
  /-- A character that starts no token. -/
  | stray
  deriving DecidableEq, Repr

/-! ## Texts -/

def hexValue? (c : Char) : Option Nat :=
  if '0' ≤ c ∧ c ≤ '9' then some (c.toNat - '0'.toNat)
  else if 'a' ≤ c ∧ c ≤ 'f' then some (c.toNat - 'a'.toNat + 10)
  else if 'A' ≤ c ∧ c ≤ 'F' then some (c.toNat - 'A'.toNat + 10)
  else none

def unitOf? (a b c d : Char) : Option Nat := do
  let a ← hexValue? a
  let b ← hexValue? b
  let c ← hexValue? c
  let d ← hexValue? d
  return ((a * 16 + b) * 16 + c) * 16 + d

def shortEscape? : Char → Option Char
  | '"' => some '"'
  | '\\' => some '\\'
  | '/' => some '/'
  | 'b' => some '\x08'
  | 'f' => some '\x0c'
  | 'n' => some '\n'
  | 'r' => some '\r'
  | 't' => some '\t'
  | _ => none

/-- The bytes the characters take in UTF-8. -/
def byteCount (cs : List Char) : Nat :=
  cs.foldl (fun n c => n + c.utf8Size) 0

def pushPiece (p : Piece) (scanned : Spelling × List Char) : Spelling × List Char :=
  ({ scanned.1 with pieces := p :: scanned.1.pieces }, scanned.2)

/-- The spelling of the text that starts after an opening quote, and what follows
it. A `\u` with fewer than four bytes behind it counts as the input's end. -/
def scanText : List Char → Spelling × List Char
  | [] => (⟨[], .endOfInput⟩, [])
  | '"' :: rest => (⟨[], .quote⟩, rest)
  | '\\' :: 'u' :: a :: b :: c :: d :: rest =>
    match unitOf? a b c d with
    | some n => pushPiece (.unit n) (scanText rest)
    | none => (⟨[], .badHexadecimal⟩, rest)
  | '\\' :: 'u' :: rest =>
    (⟨[], if byteCount rest < 4 then .endOfInput else .badHexadecimal⟩, rest)
  | ['\\'] => (⟨[], .endOfInput⟩, [])
  | '\\' :: e :: rest =>
    match shortEscape? e with
    | some c => pushPiece (.char c) (scanText rest)
    | none => (⟨[], .unknownEscape⟩, rest)
  | c :: rest =>
    if c < ' ' then (⟨[], .controlCharacter⟩, rest) else pushPiece (.char c) (scanText rest)

/-! ## Numbers -/

def isDigit (c : Char) : Bool := '0' ≤ c && c ≤ '9'

/-- The digits a text starts with, and what follows them. -/
def scanDigits (cs : List Char) : List Nat × List Char :=
  ((cs.takeWhile isDigit).map fun c => c.toNat - '0'.toNat, cs.dropWhile isDigit)

/-- The fault of a numeral that breaks off before the given text. -/
def NumeralFault.before (rest : List Char) : NumeralFault :=
  if rest.isEmpty then .endOfInput else .malformed

/-- Does a text start with `e` or `E`? Then what follows it. -/
def afterExponentMark? : List Char → Option (List Char)
  | 'e' :: rest => some rest
  | 'E' :: rest => some rest
  | _ => none

/-- The sign in front of an exponent, whether it is a minus, and what follows. -/
def exponentSign : List Char → Bool × List Char
  | '+' :: rest => (false, rest)
  | '-' :: rest => (true, rest)
  | rest => (false, rest)

/-- The exponent of a numeral, if it has one. -/
def scanExponent (n : Numeral) (cs : List Char) : Numeral × List Char :=
  match afterExponentMark? cs with
  | none => (n, cs)
  | some rest =>
    match exponentSign rest with
    | (negative, rest) =>
      match scanDigits rest with
      | ([], rest) => ({ n with fault := some (.before rest) }, rest)
      | (ds, rest) => ({ n with exponent := some (negative, ds) }, rest)

def scanFraction (n : Numeral) : List Char → Numeral × List Char
  | '.' :: rest =>
    match scanDigits rest with
    | ([], rest) => ({ n with fault := some (.before rest) }, rest)
    | (ds, rest) => scanExponent { n with fraction := some ds } rest
  | cs => scanExponent n cs

/-- The numeral a text starts with, after its sign: no digit may follow a
leading zero. -/
def scanNumeral (negative : Bool) (cs : List Char) : Numeral × List Char :=
  match scanDigits cs with
  | ([], rest) => (⟨negative, [], none, none, some (.before rest)⟩, rest)
  | (0 :: d :: ds, rest) => (⟨negative, 0 :: d :: ds, none, none, some .malformed⟩, rest)
  | (ds, rest) => scanFraction ⟨negative, ds, none, none, none⟩ rest

/-! ## Words -/

/-- What follows a word, or whether the input ends inside it. -/
def afterWord : List Char → List Char → Except Bool (List Char)
  | [], rest => .ok rest
  | _ :: _, [] => .error true
  | w :: ws, c :: cs => if w == c then afterWord ws cs else .error false

/-- The token of a word whose first character has been seen. -/
def scanWord (word : List Char) (t : Token) (cs : List Char) : Token × List Char :=
  match afterWord word cs with
  | .ok rest => (t, rest)
  | .error atEnd => (.brokenWord atEnd, [])

def isSpace (c : Char) : Bool := c == ' ' || c == '\n' || c == '\t' || c == '\r'

/-- The token that starts with a character other than white space, and what follows it. -/
def scanToken (c : Char) (rest : List Char) : Token × List Char :=
  match c with
  | '{' => (.objectOpen, rest)
  | '}' => (.objectClose, rest)
  | '[' => (.listOpen, rest)
  | ']' => (.listClose, rest)
  | ',' => (.comma, rest)
  | ':' => (.colon, rest)
  | '"' => (scanText rest).map .text id
  | '-' => (scanNumeral true rest).map .numeral id
  | 'n' => scanWord ['u', 'l', 'l'] .null rest
  | 't' => scanWord ['r', 'u', 'e'] (.bool true) rest
  | 'f' => scanWord ['a', 'l', 's', 'e'] (.bool false) rest
  | c => if isDigit c then (scanNumeral false (c :: rest)).map .numeral id else (.stray, [])

/-! ## Every token takes at least one character -/

theorem scanText_length (cs : List Char) : (scanText cs).2.length ≤ cs.length := by
  fun_induction scanText cs <;> simp_all [pushPiece] <;> omega

theorem scanDigits_length (cs : List Char) : (scanDigits cs).2.length ≤ cs.length :=
  (List.dropWhile_sublist _).length_le

theorem exponentSign_length (cs : List Char) : (exponentSign cs).2.length ≤ cs.length := by
  fun_cases exponentSign cs <;> simp

theorem afterExponentMark?_length {cs rest : List Char} (h : afterExponentMark? cs = some rest) :
    rest.length ≤ cs.length := by
  fun_cases afterExponentMark? cs <;> simp_all [afterExponentMark?]

theorem scanExponent_length (n : Numeral) (cs : List Char) :
    (scanExponent n cs).2.length ≤ cs.length := by
  unfold scanExponent
  split
  · simp
  · rename_i rest h
    have h₁ := afterExponentMark?_length h
    split
    rename_i negative rest' hs
    have h₂ := exponentSign_length rest
    rw [hs] at h₂
    have h₃ := scanDigits_length rest'
    split <;> rename_i hd <;> rw [hd] at h₃ <;> simp only at h₂ h₃ ⊢ <;> omega

theorem scanFraction_length (n : Numeral) (cs : List Char) :
    (scanFraction n cs).2.length ≤ cs.length := by
  unfold scanFraction
  split
  · rename_i rest
    have h := scanDigits_length rest
    split <;> rename_i hd <;> rw [hd] at h
    · simp only [List.length_cons] at h ⊢; omega
    · rename_i ds rest' _
      have h' := scanExponent_length { n with fraction := some ds } rest'
      simp only [List.length_cons] at h h' ⊢; omega
  · exact scanExponent_length n cs

theorem scanNumeral_length (negative : Bool) (cs : List Char) :
    (scanNumeral negative cs).2.length ≤ (scanDigits cs).2.length := by
  unfold scanNumeral
  split
  · rename_i hd; exact Nat.le_of_eq (congrArg (·.2.length) hd.symm)
  · rename_i hd; exact Nat.le_of_eq (congrArg (·.2.length) hd.symm)
  · rename_i hd
    exact Nat.le_trans (scanFraction_length _ _) (Nat.le_of_eq (congrArg (·.2.length) hd.symm))

theorem afterWord_length {ws cs rest : List Char} (h : afterWord ws cs = .ok rest) :
    rest.length ≤ cs.length := by
  fun_induction afterWord ws cs <;> simp_all
  omega

theorem scanWord_length (word : List Char) (t : Token) (cs : List Char) :
    (scanWord word t cs).2.length ≤ cs.length := by
  unfold scanWord
  split
  · rename_i h; exact afterWord_length h
  · simp

theorem scanToken_length (c : Char) (rest : List Char) :
    (scanToken c rest).2.length ≤ rest.length := by
  unfold scanToken
  split <;> try exact Nat.le_refl _
  · exact scanText_length rest
  · exact Nat.le_trans (scanNumeral_length true rest) (scanDigits_length rest)
  · exact scanWord_length _ _ _
  · exact scanWord_length _ _ _
  · exact scanWord_length _ _ _
  · split
    · rename_i hd
      refine Nat.le_trans (scanNumeral_length false (_ :: rest)) ?_
      simp only [scanDigits, List.dropWhile_cons, hd, if_true]
      exact (List.dropWhile_sublist _).length_le
    · simp

/-- The tokens of a text, up to the first character that starts none. -/
def scan : List Char → List Token
  | [] => []
  | c :: rest =>
    if isSpace c then scan rest
    else
      (scanToken c rest).1 :: scan (scanToken c rest).2
termination_by cs => cs.length
decreasing_by
  · simp
  · have := scanToken_length c rest; simp only [List.length_cons]; omega

def tokens (s : String) : List Token :=
  scan s.toList

/-! ## Bytes -/

/-- The characters that bytes are from a position on, and the bytes that are part of none. -/
def charsFrom (bytes : ByteArray) (i : Nat) : List (Option Char) :=
  if i < bytes.size then
    match bytes.utf8DecodeChar? i with
    | some c => some c :: charsFrom bytes (i + c.utf8Size)
    | none => none :: charsFrom bytes (i + 1)
  else []
termination_by bytes.size - i
decreasing_by
  · have := c.utf8Size_pos; omega
  · omega

/-- What a byte that is part of no character is scanned as: like it, a character that says
nothing anywhere, and takes one byte. -/
def standIn : Char := '\x7f'

/-- A token some of whose bytes are part of no character. -/
def Token.notUnicode : Token → Token
  | .text ⟨pieces, .quote⟩ => .text ⟨pieces, .notUnicode⟩
  | t => t

/-- The tokens of characters and of bytes that are part of none. -/
def scanPartly : List (Option Char) → List Token
  | [] => []
  | c :: rest =>
    if isSpace (c.getD standIn) then scanPartly rest
    else
      let (t, behind) := scanToken (c.getD standIn) (rest.map (·.getD standIn))
      let taken := rest.length - behind.length
      (if (rest.take taken).all Option.isSome then t else t.notUnicode) ::
        scanPartly (rest.drop taken)
termination_by cs => cs.length
decreasing_by all_goals simp only [List.length_cons, List.length_drop]; omega

/-- The tokens of bytes. -/
def tokensIn (bytes : ByteArray) : List Token :=
  match String.fromUTF8? bytes with
  | some s => tokens s
  | none => scanPartly (charsFrom bytes 0)

end ScopedSettings.Json
