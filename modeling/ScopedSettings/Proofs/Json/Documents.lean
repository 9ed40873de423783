/-
Documents are scanned as their tokens, whatever white space they have, and skipped
whole, whatever they hold.

The inductions are those over written values, with lists beside objects and white space
wherever it may stand. A skip enters the containers of a document and leaves them
again, and goes on outside of it as if it had been a word (`skipFrom_tokens`).
-/
import ScopedSettings.Proofs.Json.Figures
import ScopedSettings.Proofs.Json.Literals

namespace ScopedSettings.Json

mutual

/-- The tokens of a document. -/
def Document.tokens : Document → List Token
  | .null => [.null]
  | .bool b => [.bool b]
  | .number f => [.numeral f.numeral]
  | .text l => [.text l.spelling]
  | .list _ items => .listOpen :: itemsTokens items false
  | .object _ entries => .objectOpen :: entriesTokens entries false

/-- The tokens of items up to the closing bracket; `comma` says whether one went before. -/
def itemsTokens : List (Item Document) → Bool → List Token
  | [], _ => [.listClose]
  | ⟨_, value, _⟩ :: rest, comma =>
    (if comma then [.comma] else []) ++ value.tokens ++ itemsTokens rest true

/-- The tokens of entries up to the closing brace. -/
def entriesTokens : List (Entry Document) → Bool → List Token
  | [], _ => [.objectClose]
  | ⟨_, name, _, _, value, _⟩ :: rest, comma =>
    (if comma then [.comma] else []) ++ .text name.spelling :: .colon ::
      (value.tokens ++ entriesTokens rest true)

end

/-! ## Scanning -/

theorem scan_blanks (b : Blanks) (rest : List Char) : scan (b.val ++ rest) = scan rest := by
  obtain ⟨cs, h⟩ := b
  induction cs with
  | nil => rfl
  | cons c cs ih =>
    rw [List.cons_append, scan_space (h c List.mem_cons_self)]
    exact ih fun d hd => h d (List.mem_cons_of_mem _ hd)

theorem scan_literal (l : Literal) (rest : List Char) :
    scan (l.chars ++ rest) = .text l.spelling :: scan rest := by
  refine scan_token (by decide) ?_
  change (scanText ((l.flatMap Glyph.chars ++ ['"']) ++ rest)).map Token.text id = _
  rw [List.append_assoc]
  exact congrArg (Prod.map Token.text id) (scanText_literal l rest)

theorem scan_listOpen (rest : List Char) : scan ('[' :: rest) = .listOpen :: scan rest :=
  scan_token (by decide) rfl

theorem scan_listClose (rest : List Char) : scan (']' :: rest) = .listClose :: scan rest :=
  scan_token (by decide) rfl

theorem endsNumeral_cons {c : Char} (h : isDigit c = false ∧ c ≠ '.' ∧ c ≠ 'e' ∧ c ≠ 'E')
    (rest : List Char) : EndsNumeral (c :: rest) := by
  intro c' hc
  obtain rfl := Option.some.inj hc
  exact h

/-- White space does not go on with a number. -/
theorem endsNumeral_blanks (b : Blanks) {rest : List Char} (h : EndsNumeral rest) :
    EndsNumeral (b.val ++ rest) := by
  obtain ⟨cs, hcs⟩ := b
  cases cs with
  | nil => exact h
  | cons c cs =>
    have hc := hcs c List.mem_cons_self
    refine endsNumeral_cons ?_ _
    simp only [isSpace, Bool.or_eq_true, beq_iff_eq] at hc
    rcases hc with ((rfl | rfl) | rfl) | rfl <;> decide

theorem endsNumeral_itemsChars (items : List (Item Document)) (rest : List Char) :
    EndsNumeral (itemsChars items true ++ rest) := by
  cases items with
  | nil => exact endsNumeral_cons (by decide) _
  | cons item items =>
    rw [itemsChars, if_pos rfl]
    exact endsNumeral_cons (by decide) _

theorem endsNumeral_entriesChars (entries : List (Entry Document)) (rest : List Char) :
    EndsNumeral (entriesChars entries true ++ rest) := by
  cases entries with
  | nil => exact endsNumeral_cons (by decide) _
  | cons entry entries =>
    rw [entriesChars, if_pos rfl]
    exact endsNumeral_cons (by decide) _

/-- The comma in front of an item or an entry is scanned as itself. -/
theorem scan_optionalComma (comma : Bool) (rest : List Char) :
    scan ((if comma then [','] else []) ++ rest) =
      (if comma then [.comma] else []) ++ scan rest := by
  cases comma with
  | false => rfl
  | true => exact scan_comma rest

mutual

/-- A document is scanned as its tokens. -/
theorem Document.scan_chars (d : Document) {rest : List Char} (h : EndsNumeral rest) :
    scan (d.chars ++ rest) = d.tokens ++ scan rest := by
  cases d with
  | null => exact scan_token (by decide) rfl
  | bool b => exact scan_writeBool b rest
  | number f => exact scan_figure f h
  | text l => exact scan_literal l rest
  | list gap items =>
    rw [Document.chars, Document.tokens, List.cons_append, scan_listOpen, List.append_assoc,
      scan_blanks, scan_itemsChars items false rest]
    rfl
  | object gap entries =>
    rw [Document.chars, Document.tokens, List.cons_append, scan_objectOpen, List.append_assoc,
      scan_blanks, scan_entriesChars entries false rest]
    rfl

/-- So are items. -/
theorem scan_itemsChars (items : List (Item Document)) (comma : Bool) (rest : List Char) :
    scan (itemsChars items comma ++ rest) = itemsTokens items comma ++ scan rest := by
  cases items with
  | nil => exact scan_listClose rest
  | cons item items =>
    obtain ⟨before, value, after⟩ := item
    have hvalue := value.scan_chars
      (endsNumeral_blanks after (endsNumeral_itemsChars items rest))
    have hitems := scan_itemsChars items true rest
    rw [itemsChars, itemsTokens]
    simp only [List.append_assoc]
    rw [scan_optionalComma, scan_blanks, hvalue, scan_blanks, hitems]

/-- And entries. -/
theorem scan_entriesChars (entries : List (Entry Document)) (comma : Bool) (rest : List Char) :
    scan (entriesChars entries comma ++ rest) = entriesTokens entries comma ++ scan rest := by
  cases entries with
  | nil => exact scan_objectClose rest
  | cons entry entries =>
    obtain ⟨before, name, afterName, beforeValue, value, after⟩ := entry
    have hvalue := value.scan_chars
      (endsNumeral_blanks after (endsNumeral_entriesChars entries rest))
    have hentries := scan_entriesChars entries true rest
    rw [entriesChars, entriesTokens]
    simp only [List.append_assoc, List.cons_append]
    rw [scan_optionalComma, scan_blanks, scan_literal, scan_blanks, scan_colon, scan_blanks,
      hvalue, scan_blanks, hentries]

end

/-- The tokens of a text are those of the document it is written from. -/
theorem Document.tokens_written (before : Blanks) (d : Document) (after : Blanks) :
    Json.tokens (d.written before after) = d.tokens := by
  have hafter : EndsNumeral (after.val ++ []) := endsNumeral_blanks after endsNumeral_nil
  have hscan := d.scan_chars hafter
  rw [scan_blanks, scan, List.append_nil, List.append_nil] at hscan
  unfold Json.tokens Document.written
  rw [String.toList_ofList, List.append_assoc, scan_blanks, hscan]

/-! ## Skipping -/

/-- Where a skip goes on behind an item. -/
def skipBehind (outer : List Container) (rest : List Token) : Except Problem (List Token) :=
  match afterItem outer with
  | none => .ok rest
  | some (awaited, outer) => skipFrom awaited outer rest

theorem skipFrom_ok {awaited : Awaited} {outer : List Container} {t : Token}
    (h : skipToken awaited outer t = .ok (afterItem outer')) (rest : List Token) :
    skipFrom awaited outer (t :: rest) = skipBehind outer' rest := by
  rw [skipFrom, h]
  cases outer' <;> rfl

/-- A document does not begin with the end of a list. -/
theorem Document.tokens_eq_cons (d : Document) :
    ∃ t ts, d.tokens = t :: ts ∧ t ≠ .listClose ∧ t ≠ .objectClose := by
  cases d <;> exact ⟨_, _, by rw [Document.tokens], by simp, by simp⟩

/-- The first item of a list is skipped as any other. -/
theorem Document.skipFrom_itemOrEnd (d : Document) (outer : List Container) (rest : List Token) :
    skipFrom .itemOrEnd outer (d.tokens ++ rest) = skipFrom .value outer (d.tokens ++ rest) := by
  obtain ⟨t, ts, hts, ht, -⟩ := d.tokens_eq_cons
  have htoken : skipToken .itemOrEnd outer t = skipToken .value outer t := if_neg ht
  rw [hts, List.cons_append, skipFrom, skipFrom, htoken]

/-- What a skip awaits in front of items. -/
def awaitedItem (comma : Bool) : Awaited :=
  if comma then .commaOrEnd else .itemOrEnd

def awaitedEntry (comma : Bool) : Awaited :=
  if comma then .commaOrEnd else .keyOrEnd

mutual

/-- A document is skipped as far as it goes. -/
theorem Document.skipFrom_tokens (d : Document) (outer : List Container) (rest : List Token) :
    skipFrom .value outer (d.tokens ++ rest) = skipBehind outer rest := by
  cases d with
  | null => exact skipFrom_ok rfl rest
  | bool b => exact skipFrom_ok rfl rest
  | number f => exact skipFrom_ok rfl rest
  | text l => exact skipFrom_ok rfl rest
  | list gap items => exact skipFrom_itemsTokens items false outer rest
  | object gap entries => exact skipFrom_entriesTokens entries false outer rest

theorem skipFrom_itemsTokens (items : List (Item Document)) (comma : Bool)
    (outer : List Container) (rest : List Token) :
    skipFrom (awaitedItem comma) (.list :: outer) (itemsTokens items comma ++ rest) =
      skipBehind outer rest := by
  cases items with
  | nil => cases comma <;> exact skipFrom_ok rfl rest
  | cons item items =>
    obtain ⟨before, value, after⟩ := item
    have hvalue := value.skipFrom_tokens (.list :: outer) (itemsTokens items true ++ rest)
    have hitems : skipBehind (.list :: outer) (itemsTokens items true ++ rest) =
        skipBehind outer rest := skipFrom_itemsTokens items true outer rest
    rw [itemsTokens, List.append_assoc, List.append_assoc]
    cases comma with
    | false =>
      change skipFrom .itemOrEnd _ _ = _
      exact (value.skipFrom_itemOrEnd _ _).trans (hvalue.trans hitems)
    | true => exact hvalue.trans hitems

theorem skipFrom_entriesTokens (entries : List (Entry Document)) (comma : Bool)
    (outer : List Container) (rest : List Token) :
    skipFrom (awaitedEntry comma) (.object :: outer) (entriesTokens entries comma ++ rest) =
      skipBehind outer rest := by
  cases entries with
  | nil => cases comma <;> exact skipFrom_ok rfl rest
  | cons entry entries =>
    obtain ⟨before, name, afterName, beforeValue, value, after⟩ := entry
    have hvalue := value.skipFrom_tokens (.object :: outer) (entriesTokens entries true ++ rest)
    have hentries : skipBehind (.object :: outer) (entriesTokens entries true ++ rest) =
        skipBehind outer rest := skipFrom_entriesTokens entries true outer rest
    rw [entriesTokens]
    simp only [List.append_assoc, List.cons_append]
    cases comma <;> exact hvalue.trans hentries

end

/-- A document is skipped whole, and nothing behind it. -/
theorem Document.skip_tokens (d : Document) (rest : List Token) :
    skip (d.tokens ++ rest) = .ok rest :=
  d.skipFrom_tokens [] rest

end ScopedSettings.Json
