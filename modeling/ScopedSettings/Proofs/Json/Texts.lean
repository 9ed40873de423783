/-
Written texts are read back: scanning what a text is written as gives its
spelling (`scan_writeText`), and the spelling decodes to the text again.

A character is spelled in one piece, by itself or a short escape, or, where it
is a control without a short escape, by its code unit (`pieceOf`).
-/
import ScopedSettings.Json.Reader
import ScopedSettings.Json.Value

namespace ScopedSettings.Json

/-! ## Hexadecimal digits -/

theorem hex_of_lt {n : Nat} (h : n < 256) :
    Text.hexPadded 4 n = ['0', '0', Text.hexDigit (n / 16), Text.hexDigit (n % 16)] := by
  unfold Text.hexPadded
  rw [Text.hex]
  split
  · rename_i hn
    have hdiv : n / 16 = 0 := by omega
    rw [hdiv, Nat.mod_eq_of_lt hn]
    rfl
  · have hdiv : n / 16 < 16 := by omega
    rw [Text.hex, if_pos hdiv]
    rfl

theorem hexValue?_hexDigit : ∀ n < 16, hexValue? (Text.hexDigit n) = some n := by
  decide

theorem unitOf?_hexDigits {n : Nat} (h : n < 256) :
    unitOf? '0' '0' (Text.hexDigit (n / 16)) (Text.hexDigit (n % 16)) = some n := by
  have hzero : hexValue? '0' = some 0 := rfl
  have hhigh := hexValue?_hexDigit (n / 16) (by omega)
  have hlow := hexValue?_hexDigit (n % 16) (by omega)
  simp only [unitOf?, hzero, hhigh, hlow, Option.bind_eq_bind, Option.bind_some, Option.pure_def,
    Option.some.injEq]
  omega

/-! ## Spellings -/

/-- Is this a control without a short escape? -/
def isSpelledByUnit (c : Char) : Bool :=
  c < ' ' && c != '\x08' && c != '\t' && c != '\n' && c != '\x0c' && c != '\r'

/-- The piece a character is written as. -/
def pieceOf (c : Char) : Piece :=
  if isSpelledByUnit c then .unit c.toNat else .char c

/-- The spelling of a written text. -/
def spelling (s : String) : Spelling :=
  ⟨s.toList.map pieceOf, .quote⟩

theorem toNat_lt_of_isSpelledByUnit {c : Char} (h : isSpelledByUnit c = true) : c.toNat < 32 := by
  simp only [isSpelledByUnit, Bool.and_eq_true, decide_eq_true_eq] at h
  exact h.1.1.1.1.1

theorem scanText_char {c : Char} (hquote : c ≠ '"') (hslash : c ≠ '\\') (hspace : ¬c < ' ')
    (rest : List Char) : scanText (c :: rest) = pushPiece (.char c) (scanText rest) := by
  rw [scanText]
  · rw [if_neg hspace]
  all_goals simp [hquote, hslash]

/-- What a character is written as is scanned as its piece. -/
theorem scanText_escapeChar (c : Char) (rest : List Char) :
    scanText (escapeChar c ++ rest) = pushPiece (pieceOf c) (scanText rest) := by
  unfold escapeChar
  split
  · rfl
  · rfl
  · rfl
  · rfl
  · rfl
  · rfl
  · rfl
  · rename_i hquote hslash h₁ h₂ h₃ h₄ h₅
    have hunit : isSpelledByUnit c = decide (c < ' ') := by
      have hb : ∀ d, ¬c = d → (c != d) = true := fun d hd => bne_iff_ne.mpr hd
      simp only [isSpelledByUnit, hb _ h₁, hb _ h₂, hb _ h₃, hb _ h₄, hb _ h₅, Bool.and_true]
    unfold pieceOf
    rw [hunit]
    by_cases hspace : c < ' '
    · have hlt : c.toNat < 256 := Nat.lt_trans (n := c.toNat) (m := 32) hspace (by decide)
      rw [if_pos hspace, hex_of_lt hlt]
      simp only [List.cons_append, List.nil_append, scanText, unitOf?_hexDigits hlt, hspace,
        decide_true, if_true]
    · rw [if_neg hspace]
      simp only [hspace, decide_false, Bool.false_eq_true, if_false]
      exact scanText_char hquote hslash hspace rest

theorem scanText_flatMap (cs rest : List Char) :
    scanText (cs.flatMap escapeChar ++ '"' :: rest) = (⟨cs.map pieceOf, .quote⟩, rest) := by
  induction cs with
  | nil => rfl
  | cons c cs ih =>
    rw [List.flatMap_cons, List.append_assoc, scanText_escapeChar, ih]
    rfl

/-- A written text is scanned as its spelling. -/
theorem scanToken_writeText (s : String) (rest : List Char) :
    scanToken '"' (s.toList.flatMap escapeChar ++ ['"'] ++ rest) =
      (.text (spelling s), rest) := by
  change (scanText _).map Token.text id = _
  rw [List.append_assoc, List.singleton_append, scanText_flatMap]
  rfl

/-! ## Decoding -/

theorem decodePieces_unit {n : Nat} (h : n < 0xD800) (e : Ending) (ps : List Piece) :
    decodePieces e (.unit n :: ps) = (decodePieces e ps).map (Char.ofNat n :: ·) := by
  have hleading : isLeading n = false := by simp [isLeading]; omega
  have htrailing : isTrailing n = false := by simp [isTrailing]; omega
  cases ps with
  | nil => simp [decodePieces, hleading, htrailing]
  | cons p ps => cases p <;> simp [decodePieces, hleading, htrailing]

theorem decodePieces_pieceOf (c : Char) (e : Ending) (ps : List Piece) :
    decodePieces e (pieceOf c :: ps) = (decodePieces e ps).map (c :: ·) := by
  unfold pieceOf
  split
  · rename_i h
    have hlt := toNat_lt_of_isSpelledByUnit h
    rw [decodePieces_unit (by omega), Char.ofNat_toNat]
  · rw [decodePieces]

theorem decodePieces_map (cs : List Char) :
    decodePieces .quote (cs.map pieceOf) = .ok cs := by
  induction cs with
  | nil => rfl
  | cons c cs ih =>
    rw [List.map_cons, decodePieces_pieceOf, ih]
    rfl

@[simp] theorem spelling_decode (s : String) : (spelling s).decode = .ok s := by
  unfold Spelling.decode spelling
  rw [decodePieces_map]
  exact congrArg Except.ok String.ofList_toList

/-! ## Bytes -/

/-- The bytes of a text are scanned as the text. -/
theorem tokensIn_toUTF8 (s : String) : tokensIn s.toUTF8 = tokens s := by
  have htext : String.fromUTF8? s.toUTF8 = some s := dif_pos s.isValidUTF8
  unfold tokensIn
  rw [htext]

/-- A text that a byte is no character in can be passed over, and cannot be read. -/
example : scanPartly [some '"', some 'a', none, some '"', some ','] =
    [.text ⟨[.char 'a', .char standIn], .notUnicode⟩, .comma] := by
  cbv

end ScopedSettings.Json
