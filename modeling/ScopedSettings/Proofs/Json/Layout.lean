/-
The tokens of a value that is written, laid out or compact: blanks between tokens
are passed over, so what is scanned is the value's own tokens (`Value.tokens`) and
then those of what follows.

Only a number can run on into what follows it. In a member what follows is a
line break, a comma or a brace, so the two inductions, over values and over members,
meet at `endsNumeral_prettyChars` and `endsNumeral_compactChars`.
-/
import ScopedSettings.Proofs.Json.Numerals
import ScopedSettings.Proofs.Json.Texts

namespace ScopedSettings.Json

mutual

/-- The tokens of a value. -/
def Value.tokens : Value → List Token
  | .null => [.null]
  | .bool b => [.bool b]
  | .natural n => [.numeral (numeral n)]
  | .text s => [.text (spelling s)]
  | .object members => .objectOpen :: members.tokens false

/-- The tokens of members up to the closing brace; `comma` says whether one went before. -/
def Members.tokens : Members → Bool → List Token
  | .nil, _ => [.objectClose]
  | .cons key value rest, comma =>
    (if comma then [.comma] else []) ++ .text (spelling key) :: .colon ::
      (value.tokens ++ rest.tokens true)

end

/-! ## One token at a time -/

theorem scan_space {c : Char} (h : isSpace c = true) (rest : List Char) :
    scan (c :: rest) = scan rest := by
  rw [scan, if_pos h]

theorem scan_token {c : Char} (h : isSpace c = false) {rest after : List Char} {t : Token}
    (ht : scanToken c rest = (t, after)) : scan (c :: rest) = t :: scan after := by
  rw [scan, if_neg (by simp [h]), ht]

theorem scan_objectOpen (rest : List Char) : scan ('{' :: rest) = .objectOpen :: scan rest :=
  scan_token (by decide) rfl

theorem scan_objectClose (rest : List Char) : scan ('}' :: rest) = .objectClose :: scan rest :=
  scan_token (by decide) rfl

theorem scan_comma (rest : List Char) : scan (',' :: rest) = .comma :: scan rest :=
  scan_token (by decide) rfl

theorem scan_colon (rest : List Char) : scan (':' :: rest) = .colon :: scan rest :=
  scan_token (by decide) rfl

theorem scan_replicate (n : Nat) (rest : List Char) :
    scan (List.replicate n ' ' ++ rest) = scan rest := by
  induction n with
  | zero => rfl
  | succ n ih =>
    rw [List.replicate_succ, List.cons_append, scan_space (by decide), ih]

theorem scan_newline (level : Nat) (rest : List Char) :
    scan (newline level ++ rest) = scan rest := by
  unfold newline
  rw [List.cons_append, scan_space (by decide), scan_replicate]

theorem scan_writeText (s : String) (rest : List Char) :
    scan (writeText s ++ rest) = .text (spelling s) :: scan rest :=
  scan_token (by decide) (scanToken_writeText s rest)

theorem scan_writeBool (b : Bool) (rest : List Char) :
    scan (writeBool b ++ rest) = .bool b :: scan rest := by
  cases b with
  | true => exact scan_token (by decide) rfl
  | false => exact scan_token (by decide) rfl

/-- Digits are not what other tokens start with. -/
theorem scanToken_digit {c : Char} (h : isDigit c = true) (rest : List Char) :
    scanToken c rest = (scanNumeral false (c :: rest)).map .numeral id := by
  unfold scanToken
  split
  all_goals first
    | exact absurd h (by decide)
    | exact if_pos h

theorem isSpace_digit {c : Char} (h : isDigit c = true) : isSpace c = false := by
  cases hs : isSpace c with
  | false => rfl
  | true =>
    simp only [isSpace, Bool.or_eq_true, beq_iff_eq] at hs
    rcases hs with ((rfl | rfl) | rfl) | rfl <;> exact absurd h (by decide)

/-- What begins with a number without sign is scanned as a numeral first. -/
theorem scan_numeral {n : Nat} {tail after : List Char} {x : Numeral}
    (h : scanNumeral false (writeNatural n ++ tail) = (x, after)) :
    scan (writeNatural n ++ tail) = .numeral x :: scan after := by
  cases hw : writeNatural n with
  | nil =>
    rw [writeNatural_eq] at hw
    exact absurd hw Nat.toDigits_ne_nil
  | cons c cs =>
    rw [hw] at h
    have hdigit : isDigit c = true := isDigit_of_mem_writeNatural (n := n) (by simp [hw])
    refine scan_token (isSpace_digit hdigit) ?_
    rw [scanToken_digit hdigit]
    exact congrArg (Prod.map Token.numeral id) h

theorem scan_writeNatural (n : Nat) {rest : List Char} (h : EndsNumeral rest) :
    scan (writeNatural n ++ rest) = .numeral (numeral n) :: scan rest :=
  scan_numeral (scanNumeral_writeNatural n h)

/-! ## Laid-out values -/

/-- What follows the value of a member does not go on with it. -/
theorem endsNumeral_prettyChars (members : Members) (level : Nat) (rest : List Char) :
    EndsNumeral (members.prettyChars level true ++ rest) := by
  cases members with
  | nil =>
    intro c hc
    obtain rfl : '\n' = c := Option.some.inj hc
    decide
  | cons key value members =>
    intro c hc
    obtain rfl : ',' = c := Option.some.inj hc
    decide

mutual

/-- A laid-out value is scanned as its tokens. -/
theorem Value.scan_prettyChars (v : Value) (level : Nat) {rest : List Char} (h : EndsNumeral rest) :
    scan (v.prettyChars level ++ rest) = v.tokens ++ scan rest := by
  cases v with
  | null => exact scan_token (by decide) rfl
  | bool b => exact scan_writeBool b rest
  | natural n => exact scan_writeNatural n h
  | text s => exact scan_writeText s rest
  | object members =>
    unfold Value.prettyChars Value.tokens
    rw [List.cons_append, scan_objectOpen, members.scan_prettyChars level false rest]
    rfl

/-- Laid-out members are scanned as their tokens. -/
theorem Members.scan_prettyChars (members : Members) (level : Nat) (comma : Bool)
    (rest : List Char) :
    scan (members.prettyChars level comma ++ rest) = members.tokens comma ++ scan rest := by
  cases members with
  | nil =>
    unfold Members.prettyChars Members.tokens
    cases comma with
    | false => exact scan_objectClose rest
    | true =>
      simp only [if_true, List.append_assoc]
      rw [scan_newline]
      exact scan_objectClose rest
  | cons key value members =>
    have hvalue := value.scan_prettyChars (level + 1)
      (endsNumeral_prettyChars members level rest)
    have hmembers := members.scan_prettyChars level true rest
    unfold Members.prettyChars Members.tokens
    -- behind the comma, whether there is one or not, the two sides agree
    have hmember : scan (newline (level + 1) ++ (writeText key ++ ':' :: ' ' ::
          (value.prettyChars (level + 1) ++ (members.prettyChars level true ++ rest)))) =
        .text (spelling key) :: .colon :: (value.tokens ++ (members.tokens true ++ scan rest)) := by
      rw [scan_newline, scan_writeText, scan_colon, scan_space (by decide), hvalue, hmembers]
    cases comma with
    | false =>
      simp only [Bool.false_eq_true, if_false, List.nil_append, List.append_assoc, List.cons_append]
      exact hmember
    | true =>
      simp only [if_true, List.append_assoc, List.cons_append, List.nil_append]
      rw [scan_comma, hmember]

end

/-! ## Compact values -/

/-- Nor does what follows it where nothing stands between the tokens. -/
theorem endsNumeral_compactChars (members : Members) (rest : List Char) :
    EndsNumeral (members.compactChars true ++ rest) := by
  cases members with
  | nil =>
    intro c hc
    obtain rfl : '}' = c := Option.some.inj hc
    decide
  | cons key value members =>
    intro c hc
    obtain rfl : ',' = c := Option.some.inj hc
    decide

mutual

/-- A compact value is scanned as its tokens. -/
theorem Value.scan_compactChars (v : Value) {rest : List Char} (h : EndsNumeral rest) :
    scan (v.compactChars ++ rest) = v.tokens ++ scan rest := by
  cases v with
  | null => exact scan_token (by decide) rfl
  | bool b => exact scan_writeBool b rest
  | natural n => exact scan_writeNatural n h
  | text s => exact scan_writeText s rest
  | object members =>
    unfold Value.compactChars Value.tokens
    rw [List.cons_append, scan_objectOpen, members.scan_compactChars false rest]
    rfl

/-- Compact members are scanned as their tokens. -/
theorem Members.scan_compactChars (members : Members) (comma : Bool) (rest : List Char) :
    scan (members.compactChars comma ++ rest) = members.tokens comma ++ scan rest := by
  cases members with
  | nil =>
    unfold Members.compactChars Members.tokens
    exact scan_objectClose rest
  | cons key value members =>
    have hvalue := value.scan_compactChars (endsNumeral_compactChars members rest)
    have hmembers := members.scan_compactChars true rest
    unfold Members.compactChars Members.tokens
    -- as in a laid-out object, the two sides agree behind the comma
    have hmember : scan (writeText key ++ ':' ::
          (value.compactChars ++ (members.compactChars true ++ rest))) =
        .text (spelling key) :: .colon :: (value.tokens ++ (members.tokens true ++ scan rest)) := by
      rw [scan_writeText, scan_colon, hvalue, hmembers]
    cases comma with
    | false =>
      simp only [Bool.false_eq_true, if_false, List.nil_append, List.append_assoc, List.cons_append]
      exact hmember
    | true =>
      simp only [if_true, List.append_assoc, List.cons_append, List.nil_append]
      rw [scan_comma, hmember]

end

/-! ## Whole texts -/

theorem endsNumeral_nil : EndsNumeral [] := by
  intro c hc
  cases hc

/-- A value that is laid out has its tokens and no others. -/
theorem tokens_pretty (v : Value) : Json.tokens v.pretty = v.tokens := by
  unfold Json.tokens Value.pretty
  rw [String.toList_ofList]
  have h := v.scan_prettyChars 0 endsNumeral_nil
  rwa [List.append_nil, scan, List.append_nil] at h

/-- So has a compact one. -/
theorem tokens_compact (v : Value) : Json.tokens v.compact = v.tokens := by
  unfold Json.tokens Value.compact
  rw [String.toList_ofList]
  have h := v.scan_compactChars endsNumeral_nil
  rwa [List.append_nil, scan, List.append_nil] at h

end ScopedSettings.Json
