/-
Records whose text is cut short are not read.

No record is read before the object or the list it is written as is closed
(`RecordShape.closes`). In a laid-out object with plain values the one brace that closes
it is the last character: before it other braces stand in texts only, and a text that is cut
short is scanned up to where it breaks off, or leaves digits of a code unit behind
(`isDigit_of_scanText`). So what is left of such an object if it is cut short closes
nothing (`Members.closesLast`).
-/
import Mathlib.Data.List.Infix
import ScopedSettings.Proofs.Json.Records

namespace ScopedSettings.Json

variable {δ α β : Type}

/-- Do tokens close no object and no list? -/
def IsOpen (ts : List Token) : Prop :=
  .objectClose ∉ ts ∧ .listClose ∉ ts

theorem isOpen_nil : IsOpen [] :=
  ⟨List.not_mem_nil, List.not_mem_nil⟩

theorem isOpen_cons {t : Token} {ts : List Token} (ht : t ≠ .objectClose ∧ t ≠ .listClose)
    (h : IsOpen ts) : IsOpen (t :: ts) :=
  ⟨List.not_mem_cons_of_ne_of_not_mem ht.1.symm h.1,
    List.not_mem_cons_of_ne_of_not_mem ht.2.symm h.2⟩

/-! ## What has been read is closed -/

/-- A reader leaves tokens it has been given. -/
def Reader.Leaves (r : Reader α) : Prop :=
  ∀ ts a rest, r ts = .ok (a, rest) → rest ⊆ ts

theorem readBool_leaves : readBool.Leaves := by
  intro ts b rest h
  unfold readBool at h
  split at h <;> cases h
  exact List.subset_cons_self _ _

theorem readText_leaves (expected : String) : (readText expected).Leaves := by
  intro ts s rest h
  unfold readText at h
  split at h
  · split at h <;> cases h
    exact List.subset_cons_self _ _
  · cases h

theorem readNatural_leaves (bound : Nat) (expected : String) :
    (readNatural bound expected).Leaves := by
  intro ts n rest h
  unfold readNatural at h
  split at h
  · split at h
    · split at h <;> cases h
      exact List.subset_cons_self _ _
    all_goals cases h
  · cases h

theorem Reader.Leaves.refine {r : Reader α} (h : r.Leaves) (f : α → Except Misfit β) :
    (r.refine f).Leaves := by
  intro ts b rest hb
  unfold Reader.refine at hb
  split at hb
  · cases hb
  · rename_i a rest' hr
    split at hb <;> cases hb
    exact h ts a rest hr

theorem Reader.Leaves.map {r : Reader α} (h : r.Leaves) (f : α → β) : (r.map f).Leaves :=
  h.refine _

theorem Reader.Leaves.nullable {r : Reader α} (h : r.Leaves) : r.nullable.Leaves := by
  intro ts a rest ha
  unfold Reader.nullable at ha
  split at ha
  · cases ha
    exact List.subset_cons_self _ _
  · exact h.map some _ _ _ ha

theorem subset_of_skipFrom {ts : List Token} {awaited : Awaited} {outer : List Container}
    {rest : List Token} (h : skipFrom awaited outer ts = .ok rest) : rest ⊆ ts := by
  induction ts generalizing awaited outer with
  | nil => cases h
  | cons t ts ih =>
    unfold skipFrom at h
    split at h
    · cases h
    · cases h
      exact List.subset_cons_self _ _
    · exact List.subset_cons_of_subset _ (ih h)

namespace RecordShape

variable {s : RecordShape δ α}

theorem subset_of_readMember (hfields : ∀ f ∈ s.fields, ∀ d, (f.read d).Leaves) {d d' : δ}
    {key : String} {ts rest : List Token} (h : s.readMember d key ts = .ok (d', rest)) :
    rest ⊆ ts := by
  have hcolon {after : List Token} (hafter : afterColon ts = .ok after) : after ⊆ ts := by
    unfold afterColon at hafter
    split at hafter <;> cases hafter
    exact List.subset_cons_self _ _
  unfold readMember at h
  split at h
  · rename_i f hf
    split at h
    · cases h
    · split at h
      · cases h
      · rename_i after hafter
        refine List.Subset.trans ?_ (hcolon hafter)
        cases hread : f.read d after with
        | error p =>
          rw [hread] at h
          cases h
        | ok x =>
          rw [hread] at h
          cases h
          exact hfields f (List.mem_of_find?_eq_some hf) d _ _ _ hread
  · split at h
    · cases h
    · split at h
      · cases h
      · rename_i after hafter
        refine List.Subset.trans ?_ (hcolon hafter)
        cases hskip : skip after with
        | error p =>
          rw [hskip] at h
          cases h
        | ok rest' =>
          rw [hskip] at h
          cases h
          exact subset_of_skipFrom hskip

theorem subset_of_keyOf {f : Flaw} {ts rest : List Token} {key : String}
    (h : keyOf f ts = .ok (key, rest)) : rest ⊆ ts := by
  unfold keyOf at h
  split at h
  · split at h <;> cases h
    exact List.subset_cons_self _ _
  all_goals cases h

theorem subset_of_keyOf_map {f : Flaw} {ts rest : List Token} {key : Option String}
    (h : ((keyOf f ts).map fun (k, rest) => (some k, rest)) = .ok (key, rest)) :
    rest ⊆ ts ∧ key ≠ none := by
  cases hkey : keyOf f ts with
  | error p =>
    rw [hkey] at h
    cases h
  | ok x =>
    rw [hkey] at h
    cases h
    exact ⟨subset_of_keyOf hkey, Option.some_ne_none _⟩

theorem subset_of_nextKey {first : Bool} {ts rest : List Token} {key : Option String}
    (h : nextKey first ts = .ok (key, rest)) : rest ⊆ ts ∧ (key = none → .objectClose ∈ ts) := by
  unfold nextKey at h
  split at h
  · cases h
    exact ⟨List.subset_cons_self _ _, fun _ => List.mem_cons_self⟩
  · cases h
  · split at h
    · obtain ⟨hrest, hkey⟩ := subset_of_keyOf_map h
      exact ⟨hrest, fun hnone => absurd hnone hkey⟩
    · split at h
      · split at h
        · cases h
        · obtain ⟨hrest, hkey⟩ := subset_of_keyOf_map h
          exact ⟨List.subset_cons_of_subset _ hrest, fun hnone => absurd hnone hkey⟩
      · cases h

/-- Members are read up to where their object is closed. -/
theorem objectClose_mem_of_readMembers (hfields : ∀ f ∈ s.fields, ∀ d, (f.read d).Leaves)
    {fuel : Nat} {first : Bool} {d : δ} {ts rest : List Token} {a : α}
    (h : s.readMembers fuel first d ts = .ok (a, rest)) : .objectClose ∈ ts := by
  induction fuel generalizing first d ts with
  | zero => cases h
  | succ fuel ih =>
    unfold readMembers at h
    split at h
    · cases h
    · rename_i hkey
      exact (subset_of_nextKey hkey).2 rfl
    · rename_i key rest' hkey
      split at h
      · cases h
      · rename_i d' rest'' hmember
        exact (subset_of_nextKey hkey).1 (subset_of_readMember hfields hmember (ih h))

theorem subset_of_nextItem {first : Bool} {ts rest : List Token} {item : Option (List Token)}
    (h : nextItem first ts = .ok (item, rest)) :
    (∀ ts', item = some ts' → ts' ⊆ ts) ∧ (item = none → .listClose ∈ ts) := by
  unfold nextItem at h
  split at h
  · cases h
    exact ⟨fun _ hnone => absurd hnone.symm (Option.some_ne_none _), fun _ => List.mem_cons_self⟩
  · cases h
  · split at h
    · cases h
      exact ⟨fun _ hsome => Option.some.inj hsome ▸ List.Subset.refl _,
        fun hnone => absurd hnone (Option.some_ne_none _)⟩
    · split at h
      · split at h <;> cases h
        exact ⟨fun _ hsome => Option.some.inj hsome ▸ List.subset_cons_self _ _,
          fun hnone => absurd hnone (Option.some_ne_none _)⟩
      · cases h

/-- Items are read up to where their list is closed. -/
theorem listClose_mem_of_readItems (hfields : ∀ f ∈ s.fields, ∀ d, (f.read d).Leaves)
    {fs : List (Field δ)} (hfs : fs ⊆ s.fields) {i : Nat} {d : δ} {ts rest : List Token} {a : α}
    (h : s.readItems fs i d ts = .ok (a, rest)) : .listClose ∈ ts := by
  induction fs generalizing i d ts with
  | nil =>
    unfold readItems at h
    split at h
    · cases h
    · unfold listEnd at h
      split at h
      · exact List.mem_cons_self
      all_goals cases h
  | cons f fs ih =>
    unfold readItems at h
    split at h
    · cases h
    · rename_i hitem
      exact (subset_of_nextItem hitem).2 rfl
    · rename_i item _ hitem
      cases hread : f.read d item with
      | error p =>
        rw [hread] at h
        cases h
      | ok x =>
        rw [hread] at h
        have hrest := hfields f (hfs List.mem_cons_self) d _ _ _ hread
        have hclose := ih (fun g hg => hfs (List.mem_cons_of_mem _ hg)) h
        exact (subset_of_nextItem hitem).1 item rfl (hrest hclose)

/-- A record is read only from tokens that close something. -/
theorem closes (hfields : ∀ f ∈ s.fields, ∀ d, (f.read d).Leaves) {ts rest : List Token} {a : α}
    (h : s.read ts = .ok (a, rest)) : ¬IsOpen ts := by
  rintro ⟨hobject, hlist⟩
  unfold read at h
  split at h
  · exact hobject (List.mem_cons_of_mem _ (objectClose_mem_of_readMembers hfields h))
  · exact hlist (List.mem_cons_of_mem _ (listClose_mem_of_readItems hfields (List.Subset.refl _) h))
  · cases h

end RecordShape

/-! ## What is cut short closes nothing -/

/-- Does a text close nothing, wherever it is cut short? -/
def StaysOpen (cs : List Char) : Prop :=
  ∀ p, p <+: cs → IsOpen (scan p)

/-- Does a text close nothing if it is cut short? -/
def ClosesLast (cs : List Char) : Prop :=
  ∀ p, p <+: cs → p ≠ cs → IsOpen (scan p)

theorem isOpen_scan_nil : IsOpen (scan []) := by
  rw [scan]
  exact isOpen_nil

/-- What begins a text is part of what it begins with, or goes on behind that. -/
theorem prefix_append_cases {p cs cs' : List Char} (h : p <+: cs ++ cs') :
    p <+: cs ∨ ∃ p', p' <+: cs' ∧ p = cs ++ p' := by
  obtain ⟨t, ht⟩ := h
  rcases List.append_eq_append_iff.mp ht with ⟨rest, hcs, -⟩ | ⟨p', hp, hcs'⟩
  · exact .inl ⟨rest, hcs.symm⟩
  · exact .inr ⟨p', ⟨t, hcs'.symm⟩, hp⟩

theorem ClosesLast.append {cs cs' : List Char} (h' : ClosesLast cs') (h : StaysOpen cs)
    (hscan : ∀ p, p <+: cs' → IsOpen (scan p) → IsOpen (scan (cs ++ p))) :
    ClosesLast (cs ++ cs') := by
  intro p hp hne
  rcases prefix_append_cases hp with hp | ⟨p', hp', rfl⟩
  · exact h p hp
  · exact hscan p' hp' (h' p' hp' fun heq => hne (congrArg _ heq))

/-- Digits are one numeral, or the beginning of one. -/
theorem isOpen_scan_digits {cs : List Char} (h : ∀ c ∈ cs, isDigit c = true) :
    IsOpen (scan cs) := by
  cases cs with
  | nil => exact isOpen_scan_nil
  | cons c cs =>
    have hdigit := h c List.mem_cons_self
    have hrest : (scanNumeral false (c :: cs)).2 = [] := by
      have hlength := scanNumeral_length false (c :: cs)
      have hdigits : (scanDigits (c :: cs)).2 = [] := by
        have hends : EndsDigits [] := fun _ hc => nomatch hc
        have hscan := scanDigits_append h hends
        rw [List.append_nil] at hscan
        exact congrArg Prod.snd hscan
      rw [hdigits] at hlength
      exact List.length_eq_zero_iff.mp (Nat.le_zero.mp hlength)
    have htoken : scanToken c cs = (.numeral (scanNumeral false (c :: cs)).1, []) := by
      rw [scanToken_digit hdigit]
      exact Prod.ext rfl hrest
    rw [scan_token (isSpace_digit hdigit) htoken]
    exact isOpen_cons ⟨Token.noConfusion, Token.noConfusion⟩ isOpen_scan_nil

theorem staysOpen_writeNatural (n : Nat) : StaysOpen (writeNatural n) := by
  intro p hp
  exact isOpen_scan_digits fun c hc => isDigit_of_mem_writeNatural (hp.subset hc)

/-- A word that is cut short takes all there is of it. -/
theorem scanWord_of_prefix {word cs : List Char} (h : cs <+: word) (t : Token) :
    scanWord word t cs = (t, []) ∨ ∃ atEnd, scanWord word t cs = (.brokenWord atEnd, []) := by
  have hafter : ∀ rest, afterWord word cs = .ok rest → rest = [] := by
    induction word generalizing cs with
    | nil =>
      obtain rfl := List.prefix_nil.mp h
      rintro rest ⟨⟩
      rfl
    | cons w ws ih =>
      rcases List.prefix_cons_iff.mp h with rfl | ⟨cs, rfl, hcs⟩
      · intro rest hrest
        cases hrest
      · intro rest hrest
        exact ih hcs rest (by simpa [afterWord] using hrest)
  unfold scanWord
  cases hword : afterWord word cs with
  | ok rest =>
    rw [hafter rest hword]
    exact .inl rfl
  | error atEnd => exact .inr ⟨atEnd, rfl⟩

theorem staysOpen_word {c : Char} {word : List Char} {t : Token} (hspace : isSpace c = false)
    (hscan : ∀ cs, scanToken c cs = scanWord word t cs)
    (ht : t ≠ .objectClose ∧ t ≠ .listClose) : StaysOpen (c :: word) := by
  intro p hp
  rcases List.prefix_cons_iff.mp hp with rfl | ⟨rest, rfl, hrest⟩
  · exact isOpen_scan_nil
  · have hword := hscan rest
    rcases scanWord_of_prefix hrest t with h | ⟨atEnd, h⟩
    · rw [scan_token hspace (hword.trans h)]
      exact isOpen_cons ht isOpen_scan_nil
    · rw [scan_token hspace (hword.trans h)]
      exact isOpen_cons ⟨Token.noConfusion, Token.noConfusion⟩ isOpen_scan_nil

/-- Blanks are no tokens. -/
theorem scan_spaces {cs : List Char} (h : ∀ c ∈ cs, isSpace c = true) : scan cs = [] := by
  induction cs with
  | nil => rw [scan]
  | cons c cs ih =>
    rw [scan_space (h c List.mem_cons_self)]
    exact ih fun d hd => h d (List.mem_cons_of_mem _ hd)

theorem staysOpen_newline (level : Nat) : StaysOpen (newline level) := by
  intro p hp
  rw [scan_spaces]
  · exact isOpen_nil
  · intro c hc
    rcases List.mem_cons.mp (hp.subset hc) with rfl | hc
    · decide
    · rw [List.eq_of_mem_replicate hc]
      decide

/-- A character is written as it is, by a short escape, or by its code unit. -/
theorem escapeChar_cases (c : Char) : escapeChar c = [c] ∨ (∃ e, escapeChar c = ['\\', e]) ∨
    ∃ a b, isDigit a = true ∧ escapeChar c = ['\\', 'u', '0', '0', a, b] := by
  unfold escapeChar
  split
  iterate 7 exact .inr (.inl ⟨_, rfl⟩)
  split
  · rename_i hspace
    have hlt : c.toNat < 32 := hspace
    have hhigh : ∀ n < 2, isDigit (Text.hexDigit n) = true := by decide
    rw [hex_of_lt (by omega)]
    exact .inr (.inr ⟨_, _, hhigh (c.toNat / 16) (by omega), rfl⟩)
  · exact .inl rfl

/-- A character whose spelling is cut short leaves nothing behind but digits, of a code unit. -/
theorem isDigit_of_scanText_escapeChar {c : Char} {q : List Char} (hq : q <+: escapeChar c)
    (hne : q ≠ escapeChar c) {d : Char} (hd : d ∈ (scanText q).2) : isDigit d = true := by
  rcases escapeChar_cases c with h | ⟨e, h⟩ | ⟨a, b, ha, h⟩
  all_goals
    rw [h] at hq hne
    rw [← List.mem_inits] at hq
    simp only [List.inits, List.map_cons, List.map_nil, List.mem_cons, List.not_mem_nil,
      or_false] at hq
  · rcases hq with rfl | rfl
    · simp [scanText] at hd
    · exact absurd rfl hne
  · rcases hq with rfl | rfl | rfl
    · simp [scanText] at hd
    · simp [scanText] at hd
    · exact absurd rfl hne
  · rcases hq with rfl | rfl | rfl | rfl | rfl | rfl | rfl
    · simp [scanText] at hd
    · simp [scanText] at hd
    · simp [scanText] at hd
    · obtain rfl : d = '0' := by simpa [scanText] using hd
      rfl
    · obtain rfl : d = '0' := by simpa [scanText] using hd
      rfl
    · have hd : d = '0' ∨ d = a := by simpa [scanText] using hd
      rcases hd with rfl | rfl
      · rfl
      · exact ha
    · exact absurd rfl hne

/-- A text that breaks off leaves nothing behind but digits, of a code unit. -/
theorem isDigit_of_scanText {cs q : List Char} (hq : q <+: cs.flatMap escapeChar ++ ['"'])
    {d : Char} (hd : d ∈ (scanText q).2) : isDigit d = true := by
  induction cs generalizing q with
  | nil =>
    rcases List.prefix_cons_iff.mp hq with rfl | ⟨r, rfl, hr⟩
    · simp [scanText] at hd
    · obtain rfl := List.prefix_nil.mp hr
      simp [scanText] at hd
  | cons c cs ih =>
    rw [List.flatMap_cons, List.append_assoc] at hq
    have hlonger {q' : List Char} (hq' : q' <+: cs.flatMap escapeChar ++ ['"'])
        (hq : q = escapeChar c ++ q') : isDigit d = true := by
      rw [hq, scanText_escapeChar] at hd
      exact ih hq' hd
    rcases prefix_append_cases hq with hq | ⟨q', hq', hq⟩
    · by_cases hne : q = escapeChar c
      · exact hlonger (List.nil_prefix) (hne.trans (List.append_nil _).symm)
      · exact isDigit_of_scanText_escapeChar hq hne hd
    · exact hlonger hq' hq

theorem staysOpen_writeText (s : String) : StaysOpen (writeText s) := by
  intro p hp
  unfold writeText at hp
  rcases List.prefix_cons_iff.mp hp with rfl | ⟨q, rfl, hq⟩
  · exact isOpen_scan_nil
  · have htoken : scanToken '"' q = (.text (scanText q).1, (scanText q).2) := rfl
    rw [scan_token (by decide) htoken]
    exact isOpen_cons ⟨Token.noConfusion, Token.noConfusion⟩
      (isOpen_scan_digits fun c => isDigit_of_scanText hq)

/-- Is a value not made of others? -/
def Value.IsPlain : Value → Prop
  | .null | .bool _ | .natural _ | .text _ => True
  | .object _ => False

theorem Value.staysOpen {v : Value} (h : v.IsPlain) (level : Nat) :
    StaysOpen (v.prettyChars level) := by
  cases v with
  | null => exact staysOpen_word (by decide) (fun _ => rfl) (by decide)
  | bool b =>
    cases b with
    | true => exact staysOpen_word (by decide) (fun _ => rfl) (by decide)
    | false => exact staysOpen_word (by decide) (fun _ => rfl) (by decide)
  | natural n => exact staysOpen_writeNatural n
  | text s => exact staysOpen_writeText s
  | object members => exact h.elim

theorem Value.isOpen_tokens_append {v : Value} (h : v.IsPlain) {ts : List Token}
    (hts : IsOpen ts) : IsOpen (v.tokens ++ ts) := by
  cases v with
  | object members => exact h.elim
  | _ => exact isOpen_cons ⟨Token.noConfusion, Token.noConfusion⟩ hts

/-- What begins a text does not go on with a number where the text does not. -/
theorem EndsNumeral.of_prefix {p cs : List Char} (h : EndsNumeral cs) (hp : p <+: cs) :
    EndsNumeral p := by
  intro c hc
  cases p with
  | nil => cases hc
  | cons d p =>
    obtain ⟨t, rfl⟩ := hp
    exact h c hc

theorem staysOpen_comma : StaysOpen [','] := by
  intro p hp
  rcases List.prefix_cons_iff.mp hp with rfl | ⟨q, rfl, hq⟩
  · exact isOpen_scan_nil
  · rw [List.prefix_nil.mp hq, scan_comma]
    exact isOpen_cons (by decide) isOpen_scan_nil

theorem staysOpen_colon : StaysOpen [':', ' '] := by
  intro p hp
  rcases List.prefix_cons_iff.mp hp with rfl | ⟨q, rfl, hq⟩
  · exact isOpen_scan_nil
  · have hspaces : scan q = [] := scan_spaces fun c hc => by
      rw [List.mem_singleton.mp (hq.subset hc)]
      decide
    rw [scan_colon, hspaces]
    exact isOpen_cons (by decide) isOpen_nil

/-- Members of plain values are closed by their last character, and not before. -/
theorem Members.closesLast {ms : List (String × Value)} (hms : ∀ m ∈ ms, m.2.IsPlain)
    (level : Nat) (comma : Bool) : ClosesLast ((Members.ofList ms).prettyChars level comma) := by
  induction ms generalizing comma with
  | nil =>
    have hbrace : ClosesLast ['}'] := by
      intro p hp hne
      rcases List.prefix_cons_iff.mp hp with rfl | ⟨q, rfl, hq⟩
      · exact isOpen_scan_nil
      · rw [List.prefix_nil.mp hq] at hne
        exact absurd rfl hne
    unfold Members.ofList Members.prettyChars
    cases comma with
    | false => exact hbrace
    | true =>
      refine hbrace.append (staysOpen_newline level) fun p _ hp => ?_
      rwa [if_pos rfl, scan_newline]
  | cons m ms ih =>
    obtain ⟨key, value⟩ := m
    have hvalue : value.IsPlain := hms _ List.mem_cons_self
    have hrest := ih (fun m hm => hms m (List.mem_cons_of_mem _ hm)) true
    have hbehind : ClosesLast (value.prettyChars (level + 1) ++
        (Members.ofList ms).prettyChars level true) := by
      refine hrest.append (value.staysOpen hvalue _) fun p hp hopen => ?_
      have hends : EndsNumeral ((Members.ofList ms).prettyChars level true) := by
        simpa using endsNumeral_prettyChars (Members.ofList ms) level []
      rw [value.scan_prettyChars _ (hends.of_prefix hp)]
      exact value.isOpen_tokens_append hvalue hopen
    have hcolon := hbehind.append staysOpen_colon fun p _ hopen => by
      rw [List.cons_append, scan_colon, List.cons_append, scan_space (by decide)]
      exact isOpen_cons (by decide) hopen
    have hkey := hcolon.append (staysOpen_writeText key) fun p _ hopen => by
      rw [scan_writeText]
      exact isOpen_cons ⟨Token.noConfusion, Token.noConfusion⟩ hopen
    have hline := hkey.append (staysOpen_newline (level + 1)) fun p _ hopen => by
      rwa [scan_newline]
    unfold Members.ofList Members.prettyChars
    cases comma with
    | false => simpa [List.append_assoc] using hline
    | true =>
      have hcomma := hline.append staysOpen_comma fun p _ hopen => by
        rw [List.singleton_append, scan_comma]
        exact isOpen_cons (by decide) hopen
      simpa [List.append_assoc] using hcomma

/-- A record that is laid out and cut short is not read. -/
theorem RecordShape.whole_cutShort {s : RecordShape δ α}
    (hfields : ∀ f ∈ s.fields, ∀ d, (f.read d).Leaves) {ms : List (String × Value)}
    (hms : ∀ m ∈ ms, m.2.IsPlain) {text : String}
    (htext : text.toList <+: (Value.ofMembers ms).pretty.toList)
    (hne : text ≠ (Value.ofMembers ms).pretty) :
    ∃ p, s.read.whole (Json.tokens text) = .error p := by
  have hpretty : (Value.ofMembers ms).pretty.toList =
      '{' :: (Members.ofList ms).prettyChars 0 false := by
    unfold Value.pretty
    rw [String.toList_ofList]
    rfl
  have hopen : IsOpen (Json.tokens text) := by
    unfold Json.tokens
    rw [hpretty] at htext
    rcases List.prefix_cons_iff.mp htext with hnil | ⟨p, hp, hprefix⟩
    · rw [hnil]
      exact isOpen_scan_nil
    · rw [hp, scan_objectOpen]
      refine isOpen_cons (by decide) (Members.closesLast hms 0 false p hprefix fun heq => hne ?_)
      exact String.toList_inj.mp (by rw [hp, heq, hpretty])
  unfold Reader.whole
  cases hread : s.read (Json.tokens text) with
  | error p => exact ⟨p, rfl⟩
  | ok x => exact absurd hopen (closes hfields hread)

end ScopedSettings.Json
