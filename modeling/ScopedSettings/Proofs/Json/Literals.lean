/-
Texts are read however they are spelled.

A literal is scanned glyph by glyph, each as its piece (`scanText_literal`). What the
pieces decode to is told by their code units alone: they decode to a string just
where the units are those of the string (`decodePieces_eq_ok_iff`), so that plain
characters, short escapes and pairs of surrogates are all one to the reader.
-/
import ScopedSettings.Json.Document
import ScopedSettings.Json.Reader
import ScopedSettings.Proofs.Json.Texts

namespace ScopedSettings.Json

/-! ## Scanning -/

/-- The piece a glyph is scanned as. -/
def Glyph.piece : Glyph → Piece
  | .plain c _ => .char c
  | .short e => .char e.char
  | .unit a b c d => .unit (HexDigit.codeUnit a b c d)

/-- The spelling a literal is scanned as. -/
def Literal.spelling (l : Literal) : Spelling :=
  ⟨l.map Glyph.piece, .quote⟩

theorem hexValue?_char (d : HexDigit) : hexValue? d.char = some d.value := by
  obtain ⟨value, isUpper⟩ := d
  revert value isUpper
  decide

theorem unitOf?_chars (a b c d : HexDigit) :
    unitOf? a.char b.char c.char d.char = some (HexDigit.codeUnit a b c d) := by
  simp only [unitOf?, hexValue?_char, Option.bind_eq_bind, Option.bind_some, Option.pure_def]
  rfl

theorem isPlain_iff {c : Char} : isPlain c = true ↔ ¬c < ' ' ∧ c ≠ '"' ∧ c ≠ '\\' := by
  simp [isPlain, and_assoc]

theorem scanText_glyph (g : Glyph) (rest : List Char) :
    scanText (g.chars ++ rest) = pushPiece g.piece (scanText rest) := by
  cases g with
  | plain c h =>
    obtain ⟨hspace, hquote, hslash⟩ := isPlain_iff.mp h
    exact scanText_char hquote hslash hspace rest
  | short e => cases e <;> rfl
  | unit a b c d =>
    simp only [Glyph.chars, List.cons_append, List.nil_append, scanText, unitOf?_chars]
    rfl

theorem scanText_literal (l : Literal) (rest : List Char) :
    scanText (l.flatMap Glyph.chars ++ '"' :: rest) = (l.spelling, rest) := by
  induction l with
  | nil => rfl
  | cons g l ih =>
    rw [List.flatMap_cons, List.append_assoc, scanText_glyph, ih]
    rfl

/-! ## Code units -/

/-- The code units of a piece. -/
def Piece.units : Piece → List Nat
  | .char c => utf16 c
  | .unit n => [n]

theorem Glyph.units_piece (g : Glyph) : g.piece.units = g.units := by
  cases g <;> rfl

theorem Literal.units_spelling (l : Literal) :
    l.spelling.pieces.flatMap Piece.units = l.units := by
  simp only [Literal.spelling, Literal.units, List.flatMap_map, Glyph.units_piece]

theorem codeUnit_lt (a b c d : HexDigit) : HexDigit.codeUnit a b c d < 0x10000 := by
  unfold HexDigit.codeUnit
  omega

theorem utf16_of_lt {c : Char} (h : c.toNat < 0x10000) : utf16 c = [c.toNat] :=
  if_pos h

/-- A character is no surrogate. -/
theorem toNat_range (c : Char) : c.toNat < 0xD800 ∨ 0xE000 ≤ c.toNat ∧ c.toNat < 0x110000 := by
  have h := c.valid
  simp only [UInt32.isValidChar, Nat.isValidChar] at h
  change c.val.toNat < _ ∨ _ ≤ c.val.toNat ∧ c.val.toNat < _
  omega

/-- The units of a text are those of its first character, a unit or a pair, and then those
of the rest. -/
theorem cons_eq_flatMap_utf16_iff {n : Nat} {ns : List Nat} {cs : List Char} :
    n :: ns = cs.flatMap utf16 ↔
      ∃ c rest, cs = c :: rest ∧
        (c.toNat < 0x10000 ∧ n = c.toNat ∧ ns = rest.flatMap utf16 ∨
          0x10000 ≤ c.toNat ∧ n = 0xD800 + (c.toNat - 0x10000) / 0x400 ∧
            ns = (0xDC00 + (c.toNat - 0x10000) % 0x400) :: rest.flatMap utf16) := by
  cases cs with
  | nil => simp
  | cons c cs =>
    have hcase : n :: ns = (c :: cs).flatMap utf16 ↔
        (c.toNat < 0x10000 ∧ n = c.toNat ∧ ns = cs.flatMap utf16 ∨
          0x10000 ≤ c.toNat ∧ n = 0xD800 + (c.toNat - 0x10000) / 0x400 ∧
            ns = (0xDC00 + (c.toNat - 0x10000) % 0x400) :: cs.flatMap utf16) := by
      rw [List.flatMap_cons]
      by_cases h : c.toNat < 0x10000
      · rw [utf16_of_lt h]
        simp [h, Nat.not_le.mpr h]
      · rw [utf16, if_neg h]
        simp [h, Nat.le_of_not_lt h]
    rw [hcase]
    constructor
    · intro h
      exact ⟨c, cs, rfl, h⟩
    · rintro ⟨c', rest, hcons, h⟩
      obtain ⟨rfl, rfl⟩ := List.cons.inj hcons
      exact h

theorem utf16_append_eq_iff {c : Char} {ns : List Nat} {cs : List Char} :
    utf16 c ++ ns = cs.flatMap utf16 ↔ ∃ rest, cs = c :: rest ∧ ns = rest.flatMap utf16 := by
  constructor
  · intro h
    unfold utf16 at h
    split at h
    · rename_i hc
      obtain ⟨c', rest, rfl, hcase⟩ := cons_eq_flatMap_utf16_iff.mp h
      have := toNat_range c
      have := toNat_range c'
      rcases hcase with ⟨-, hn, hns⟩ | ⟨_, hn, hns⟩
      · exact ⟨rest, by rw [Char.toNat_inj.mp hn], hns⟩
      · omega
    · rename_i hc
      obtain ⟨c', rest, rfl, hcase⟩ := cons_eq_flatMap_utf16_iff.mp h
      have := toNat_range c
      have := toNat_range c'
      rcases hcase with ⟨-, hn, hns⟩ | ⟨_, hn, hns⟩
      · omega
      · obtain ⟨hm, hns⟩ := List.cons.inj hns
        refine ⟨rest, ?_, hns⟩
        rw [Char.toNat_inj.mp (show c.toNat = c'.toNat by omega)]
  · rintro ⟨rest, rfl, rfl⟩
    rfl

theorem toNat_ofNat_of_range {n : Nat} (h : n < 0xD800 ∨ 0xE000 ≤ n ∧ n < 0x110000) :
    (Char.ofNat n).toNat = n := by
  have hvalid : n.isValidChar := by
    unfold Nat.isValidChar
    omega
  rw [Char.ofNat, dif_pos hvalid]
  rfl

/-- A code unit that is no surrogate stands for its character. -/
theorem unit_cons_eq_iff {n : Nat} (hn : n < 0x10000) (ht : isTrailing n = false)
    (hl : isLeading n = false) {ns : List Nat} {cs : List Char} :
    n :: ns = cs.flatMap utf16 ↔
      ∃ rest, cs = Char.ofNat n :: rest ∧ ns = rest.flatMap utf16 := by
  simp only [isLeading, isTrailing, Bool.and_eq_false_iff, decide_eq_false_iff_not] at hl ht
  have htoNat : (Char.ofNat n).toNat = n := toNat_ofNat_of_range (by omega)
  have hutf16 : utf16 (Char.ofNat n) = [n] := by
    rw [utf16_of_lt (by omega), htoNat]
  rw [← utf16_append_eq_iff, hutf16]
  rfl

theorem pair_cons_eq_iff {n m : Nat} (hl : isLeading n = true) (ht : isTrailing m = true)
    {ns : List Nat} {cs : List Char} :
    n :: m :: ns = cs.flatMap utf16 ↔
      ∃ rest, cs = Char.ofNat (pairCode n m) :: rest ∧ ns = rest.flatMap utf16 := by
  simp only [isLeading, isTrailing, Bool.and_eq_true, decide_eq_true_eq] at hl ht
  have htoNat : (Char.ofNat (pairCode n m)).toNat = pairCode n m :=
    toNat_ofNat_of_range (by unfold pairCode; omega)
  have hhigh : 0xD800 + (pairCode n m - 0x10000) / 0x400 = n := by unfold pairCode; omega
  have hlow : 0xDC00 + (pairCode n m - 0x10000) % 0x400 = m := by unfold pairCode; omega
  have hutf16 : utf16 (Char.ofNat (pairCode n m)) = [n, m] := by
    rw [utf16, htoNat, if_neg (by unfold pairCode; omega), hhigh, hlow]
  rw [← utf16_append_eq_iff, hutf16]
  rfl

/-- A trailing surrogate without a leading one before it is in no text. -/
theorem trailing_cons_ne {n : Nat} (ht : isTrailing n = true) (ns : List Nat) (cs : List Char) :
    n :: ns ≠ cs.flatMap utf16 := by
  intro h
  simp only [isTrailing, Bool.and_eq_true, decide_eq_true_eq] at ht
  obtain ⟨c, rest, rfl, hcase⟩ := cons_eq_flatMap_utf16_iff.mp h
  have := toNat_range c
  omega

/-- Nor is a leading one without a trailing one behind it. -/
theorem leading_cons_ne {n : Nat} (hl : isLeading n = true) {ns : List Nat}
    (hns : ∀ m ∈ ns.head?, isTrailing m = false) (cs : List Char) :
    n :: ns ≠ cs.flatMap utf16 := by
  intro h
  simp only [isLeading, Bool.and_eq_true, decide_eq_true_eq] at hl
  simp only [isTrailing, Bool.and_eq_false_iff, decide_eq_false_iff_not] at hns
  obtain ⟨c, rest, rfl, hcase⟩ := cons_eq_flatMap_utf16_iff.mp h
  have := toNat_range c
  rcases hcase with ⟨_, hn, -⟩ | ⟨_, -, hns'⟩
  · omega
  · have := hns (0xDC00 + (c.toNat - 0x10000) % 0x400) (by simp [hns'])
    omega

/-! ## Decoding -/

/-- Do pieces not go on with the second unit of a pair? -/
def EndsPair (ps : List Piece) : Prop :=
  ∀ m, ps.head? = some (.unit m) → isTrailing m = false

theorem decodePieces_trailing {n : Nat} (ht : isTrailing n = true) (e : Ending) (ps : List Piece) :
    decodePieces e (.unit n :: ps) = .error .loneSurrogate := by
  cases ps with
  | nil => simp only [decodePieces, ht, if_true]
  | cons p ps => cases p <;> simp only [decodePieces, ht, if_true]

/-- A unit that is no surrogate decodes to its character. -/
theorem decodePieces_single {n : Nat} (ht : isTrailing n = false) (hl : isLeading n = false)
    (e : Ending) (ps : List Piece) :
    decodePieces e (.unit n :: ps) = (decodePieces e ps).map (Char.ofNat n :: ·) := by
  cases ps with
  | nil => simp [decodePieces, ht, hl]
  | cons p ps => cases p <;> simp [decodePieces, ht, hl]

theorem isTrailing_of_isLeading {n : Nat} (hl : isLeading n = true) : isTrailing n = false := by
  simp only [isLeading, Bool.and_eq_true, decide_eq_true_eq] at hl
  simp only [isTrailing, Bool.and_eq_false_iff, decide_eq_false_iff_not]
  omega

theorem decodePieces_pair {n m : Nat} (hl : isLeading n = true) (ht : isTrailing m = true)
    (e : Ending) (ps : List Piece) :
    decodePieces e (.unit n :: .unit m :: ps) =
      (decodePieces e ps).map (Char.ofNat (pairCode n m) :: ·) := by
  simp only [decodePieces, isTrailing_of_isLeading hl, hl, ht, Bool.false_eq_true, if_false,
    if_true]

theorem decodePieces_unpaired {n : Nat} (hl : isLeading n = true) (e : Ending) {ps : List Piece}
    (h : EndsPair ps) : ∃ f, decodePieces e (.unit n :: ps) = .error f := by
  have hn := isTrailing_of_isLeading hl
  cases ps with
  | nil => exact ⟨e.afterLeading, by simp [decodePieces, hn, hl]⟩
  | cons p ps =>
    cases p with
    | char c => exact ⟨.unexpectedEscapeEnd, by simp [decodePieces, hn, hl]⟩
    | unit m => exact ⟨.loneSurrogate, by simp [decodePieces, hn, hl, h m rfl]⟩

theorem map_cons_eq_ok_iff {x : Except Flaw (List Char)} {c : Char} {cs : List Char} :
    x.map (c :: ·) = .ok cs ↔ ∃ rest, cs = c :: rest ∧ x = .ok rest := by
  cases x with
  | error f => simp [Except.map]
  | ok rest => simp [Except.map, eq_comm]

/-- The units of pieces begin with a trailing surrogate only where the pieces do. -/
theorem EndsPair.head_units {ps : List Piece} (h : EndsPair ps) :
    ∀ m ∈ (ps.flatMap Piece.units).head?, isTrailing m = false := by
  intro m hm
  cases ps with
  | nil => cases hm
  | cons p ps =>
    cases p with
    | unit n =>
      obtain rfl : n = m := Option.some.inj hm
      exact h n rfl
    | char c =>
      have := toNat_range c
      rw [List.flatMap_cons, Piece.units, utf16] at hm
      split at hm <;> obtain rfl := Option.some.inj hm <;>
        simp only [isTrailing, Bool.and_eq_false_iff, decide_eq_false_iff_not] <;> omega

/-- Pieces that end at the quotation mark decode to the characters whose code units are
theirs, and to nothing else. -/
theorem decodePieces_eq_ok_iff : ∀ {ps : List Piece}, (∀ n, .unit n ∈ ps → n < 0x10000) →
    ∀ {cs : List Char},
      decodePieces .quote ps = .ok cs ↔ ps.flatMap Piece.units = cs.flatMap utf16
  | [], _, cs => by
    cases cs with
    | nil => simp [decodePieces, Ending.readFlaw?, Ending.flaw?]
    | cons c cs =>
      simp only [decodePieces, Ending.readFlaw?, Ending.flaw?, List.flatMap_nil, List.flatMap_cons,
        utf16]
      split <;> simp
  | .char c :: ps, h, cs => by
    have ih : ∀ {cs}, decodePieces .quote ps = .ok cs ↔ _ :=
      decodePieces_eq_ok_iff fun n hn => h n (List.mem_cons_of_mem _ hn)
    rw [decodePieces, map_cons_eq_ok_iff, List.flatMap_cons, Piece.units, utf16_append_eq_iff]
    simp only [ih]
  | .unit n :: ps, h, cs => by
    rw [List.flatMap_cons, Piece.units, List.singleton_append]
    cases ht : isTrailing n with
    | true => simp only [decodePieces_trailing ht, trailing_cons_ne ht, reduceCtorEq]
    | false =>
      cases hl : isLeading n with
      | false =>
        have ih : ∀ {cs}, decodePieces .quote ps = .ok cs ↔ _ :=
          decodePieces_eq_ok_iff fun n hn => h n (List.mem_cons_of_mem _ hn)
        rw [decodePieces_single ht hl, map_cons_eq_ok_iff,
          unit_cons_eq_iff (h n List.mem_cons_self) ht hl]
        simp only [ih]
      | true =>
        by_cases hps : EndsPair ps
        · obtain ⟨f, hf⟩ := decodePieces_unpaired hl .quote hps
          simp only [hf, leading_cons_ne hl hps.head_units, reduceCtorEq]
        · obtain ⟨m, hm, htm⟩ : ∃ m, ps.head? = some (.unit m) ∧ isTrailing m = true := by
            simpa [EndsPair] using hps
          obtain ⟨ps, rfl⟩ := List.head?_eq_some_iff.mp hm
          have ih : ∀ {cs}, decodePieces .quote ps = .ok cs ↔ _ := decodePieces_eq_ok_iff
            fun n hn => h n (List.mem_cons_of_mem _ (List.mem_cons_of_mem _ hn))
          rw [decodePieces_pair hl htm, map_cons_eq_ok_iff, List.flatMap_cons, Piece.units,
            List.singleton_append, pair_cons_eq_iff hl htm]
          simp only [ih]
termination_by ps => ps.length

/-- A literal is read as the string it stands for, and one that stands for none is not read. -/
theorem Literal.decode_eq_ok_iff {l : Literal} {s : String} :
    l.spelling.decode = .ok s ↔ l.Spells s := by
  have hunits : ∀ n, .unit n ∈ l.spelling.pieces → n < 0x10000 := by
    intro n hn
    obtain ⟨g, -, hg⟩ := List.mem_map.mp hn
    cases g with
    | plain c h => cases hg
    | short e => cases hg
    | unit a b c d =>
      obtain rfl := Piece.unit.inj hg
      exact codeUnit_lt a b c d
  have hdecode : l.spelling.decode = .ok s ↔
      decodePieces .quote l.spelling.pieces = .ok s.toList := by
    unfold Spelling.decode
    change (decodePieces .quote l.spelling.pieces).map String.ofList = _ ↔ _
    cases decodePieces .quote l.spelling.pieces with
    | error f => simp [Except.map]
    | ok cs =>
      simp only [Except.map, Except.ok.injEq]
      exact ⟨fun h => by rw [← h, String.toList_ofList], fun h => by rw [h, String.ofList_toList]⟩
  rw [hdecode, decodePieces_eq_ok_iff hunits, l.units_spelling]
  rfl

/-- A character that may not stand for itself is a control, a quotation mark or a backslash. -/
theorem toNat_lt_of_not_isPlain {c : Char} (h : ¬isPlain c = true) : c.toNat < 256 := by
  rw [isPlain_iff] at h
  by_cases hspace : c < ' '
  · exact Nat.lt_trans (m := 32) hspace (by decide)
  · by_cases hquote : c = '"'
    · subst hquote
      decide
    · by_cases hslash : c = '\\'
      · subst hslash
        decide
      · exact absurd ⟨hspace, hquote, hslash⟩ h

theorem Glyph.units_ofChar (c : Char) : (Glyph.ofChar c).units = utf16 c := by
  unfold Glyph.ofChar
  split
  · rfl
  · rename_i h
    have hlt := toNat_lt_of_not_isPlain h
    rw [utf16_of_lt (by omega)]
    simp only [Glyph.units, HexDigit.codeUnit, Fin.ofNat, Fin.val_zero, List.cons.injEq, and_true]
    omega

/-- Every string has a literal. -/
theorem Literal.spells_ofString (s : String) : (Literal.ofString s).Spells s := by
  simp only [Literal.Spells, Literal.units, Literal.ofString, List.flatMap_map, Glyph.units_ofChar]

/-- A literal stands for one string at most. -/
theorem Literal.Spells.unique {l : Literal} {s t : String} (hs : l.Spells s) (ht : l.Spells t) :
    s = t :=
  Except.ok.inj ((Literal.decode_eq_ok_iff.mpr hs).symm.trans (Literal.decode_eq_ok_iff.mpr ht))

end ScopedSettings.Json
