/-
Numbers are scanned with whatever sign, fraction and exponent they are spelled, and
read as natural numbers only where they are spelled with none of them.

A figure is scanned as its numeral (`scan_figure`); a reader of naturals below a
bound takes the figure of such a natural and no other (`readNatural_figure_eq_ok_iff`).
-/
import ScopedSettings.Json.Document
import ScopedSettings.Proofs.Json.Layout

namespace ScopedSettings.Json

/-! ## Scanning -/

def Digits.values (ds : Digits) : List Nat :=
  ds.val.map Fin.val

/-- The numeral a figure is scanned as. -/
def Figure.numeral (f : Figure) : Numeral where
  negative := f.isNegative
  whole := (writeNatural f.whole).map digitValue
  fraction := f.fraction.map Digits.values
  exponent := f.exponent.map fun e => (e.sign == .minus, e.digits.values)
  fault := none

theorem digitChar_spec (d : Fin 10) :
    isDigit (digitChar d) = true ∧ digitValue (digitChar d) = d := by
  revert d
  decide

theorem scanDigits_chars (ds : Digits) {rest : List Char} (h : EndsDigits rest) :
    scanDigits (ds.chars ++ rest) = (ds.values, rest) := by
  have hdigits : ∀ c ∈ ds.chars, isDigit c = true := by
    intro c hc
    obtain ⟨d, -, rfl⟩ := List.mem_map.mp hc
    exact (digitChar_spec d).1
  rw [scanDigits_append hdigits h]
  simp only [Digits.chars, Digits.values, List.map_map, Function.comp_def, digitChar_spec]

theorem Digits.values_ne_nil (ds : Digits) : ds.values ≠ [] := by
  simpa [Digits.values] using ds.property

/-- Digits begin with neither a sign nor an exponent's mark nor a point. -/
theorem Digits.chars_eq_cons (ds : Digits) :
    ∃ d cs, ds.chars = digitChar d :: cs := by
  obtain ⟨ds, h⟩ := ds
  cases ds with
  | nil => exact absurd rfl h
  | cons d ds => exact ⟨d, _, rfl⟩

theorem exponentSign_chars (sign : ExponentSign) (ds : Digits) (rest : List Char) :
    exponentSign (sign.chars ++ (ds.chars ++ rest)) = (sign == .minus, ds.chars ++ rest) := by
  cases sign with
  | plus => rfl
  | minus => rfl
  | none =>
    obtain ⟨d, cs, hcs⟩ := ds.chars_eq_cons
    have hne : ∀ d : Fin 10, digitChar d ≠ '+' ∧ digitChar d ≠ '-' := by decide
    rw [ExponentSign.chars, List.nil_append, hcs, List.cons_append]
    unfold exponentSign
    split
    · rename_i h
      exact absurd (List.cons.inj h).1 (hne d).1
    · rename_i h
      exact absurd (List.cons.inj h).1 (hne d).2
    · rfl

theorem scanExponent_chars (n : Numeral) (e : Exponent) {rest : List Char} (h : EndsDigits rest) :
    scanExponent n (e.chars ++ rest) =
      ({ n with exponent := some (e.sign == .minus, e.digits.values) }, rest) := by
  have hmark : afterExponentMark? (e.chars ++ rest) =
      some (e.sign.chars ++ (e.digits.chars ++ rest)) := by
    obtain ⟨isUpper, sign, digits⟩ := e
    cases isUpper <;> simp [Exponent.chars, afterExponentMark?]
  unfold scanExponent
  rw [hmark]
  dsimp only
  rw [exponentSign_chars]
  dsimp only
  rw [scanDigits_chars _ h]
  split
  · rename_i hd
    exact absurd (Prod.mk.inj hd).1 e.digits.values_ne_nil
  · rename_i hd
    obtain ⟨rfl, rfl⟩ := Prod.mk.inj hd
    rfl

/-- The exponent of a figure, if it has one, is scanned up to what follows. -/
theorem scanExponent_elim (n : Numeral) (e : Option Exponent) {rest : List Char}
    (h : EndsNumeral rest) (hn : n.exponent = none) :
    scanExponent n (e.elim [] Exponent.chars ++ rest) =
      ({ n with exponent := e.map fun e => (e.sign == .minus, e.digits.values) }, rest) := by
  cases e with
  | none =>
    rw [Option.elim_none, List.nil_append, scanExponent_of_ends n h, Option.map_none, ← hn]
  | some e => exact scanExponent_chars n e h.endsDigits

theorem Exponent.chars_eq_cons (e : Exponent) :
    ∃ c cs, e.chars = c :: cs ∧ (c = 'e' ∨ c = 'E') := by
  obtain ⟨isUpper, sign, digits⟩ := e
  cases isUpper with
  | false => exact ⟨'e', _, rfl, .inl rfl⟩
  | true => exact ⟨'E', _, rfl, .inr rfl⟩

theorem endsDigits_exponent (e : Option Exponent) {rest : List Char} (h : EndsNumeral rest) :
    EndsDigits (e.elim [] Exponent.chars ++ rest) := by
  cases e with
  | none => exact h.endsDigits
  | some e =>
    obtain ⟨c, cs, hcs, hc⟩ := e.chars_eq_cons
    intro c' hc'
    rw [Option.elim_some, hcs] at hc'
    obtain rfl := Option.some.inj hc'
    rcases hc with rfl | rfl <;> decide

/-- The fraction and the exponent of a figure are scanned up to what follows. -/
theorem scanFraction_tail (f : Figure) {rest : List Char} (h : EndsNumeral rest) :
    scanFraction ⟨f.isNegative, (writeNatural f.whole).map digitValue, none, none, none⟩
        (f.tail ++ rest) = (f.numeral, rest) := by
  obtain ⟨isNegative, whole, fraction, exponent⟩ := f
  unfold Figure.tail Figure.numeral
  rw [List.append_assoc]
  cases fraction with
  | none =>
    rw [Option.elim_none, List.nil_append, scanFraction_of_ne, scanExponent_elim _ _ h rfl]
    · rfl
    · intro c hc
      cases exponent with
      | none => exact (h c hc).2.1
      | some e =>
        obtain ⟨c', cs, hcs, hc'⟩ := e.chars_eq_cons
        rw [Option.elim_some, hcs] at hc
        obtain rfl := Option.some.inj hc
        rcases hc' with rfl | rfl <;> decide
  | some ds =>
    rw [Option.elim_some, List.cons_append, scanFraction,
      scanDigits_chars ds (endsDigits_exponent exponent h)]
    split
    · rename_i hd
      exact absurd (Prod.mk.inj hd).1 ds.values_ne_nil
    · rename_i hd
      obtain ⟨rfl, rfl⟩ := Prod.mk.inj hd
      exact scanExponent_elim _ _ h rfl

theorem endsDigits_tail (f : Figure) {rest : List Char} (h : EndsNumeral rest) :
    EndsDigits (f.tail ++ rest) := by
  obtain ⟨isNegative, whole, fraction, exponent⟩ := f
  unfold Figure.tail
  rw [List.append_assoc]
  cases fraction with
  | none => exact endsDigits_exponent exponent h
  | some ds =>
    intro c hc
    obtain rfl : '.' = c := Option.some.inj hc
    decide

/-- A figure is scanned as its numeral. -/
theorem scan_figure (f : Figure) {rest : List Char} (h : EndsNumeral rest) :
    scan (f.chars ++ rest) = .numeral f.numeral :: scan rest := by
  have hnumeral : scanNumeral f.isNegative (writeNatural f.whole ++ (f.tail ++ rest)) =
      (f.numeral, rest) := by
    rw [scanNumeral_whole _ _ (endsDigits_tail f h), scanFraction_tail f h]
  unfold Figure.chars
  rw [List.append_assoc, List.append_assoc]
  cases hneg : f.isNegative with
  | false =>
    rw [hneg] at hnumeral
    exact scan_numeral hnumeral
  | true =>
    rw [hneg] at hnumeral
    refine scan_token (by decide) ?_
    exact congrArg (Prod.map Token.numeral id) hnumeral

/-! ## Reading -/

/-- Digits that fit below a bound are worth less than it. -/
theorem of_fittingDigits_eq {bound m : Nat} {cs : List Char} {n : Nat} (hn : n < bound)
    (h : fittingDigits bound n (cs.map digitValue) = (m, [])) :
    m = Nat.ofDigitChars 10 cs n ∧ m < bound := by
  induction cs generalizing n with
  | nil =>
    obtain rfl : n = m := congrArg Prod.fst h
    exact ⟨by simp, hn⟩
  | cons c cs ih =>
    rw [List.map_cons, fittingDigits] at h
    unfold appendDigit? at h
    by_cases hc : n * 10 + digitValue c < bound
    · rw [if_pos hc] at h
      rw [Nat.ofDigitChars_cons, Nat.mul_comm]
      exact ih hc h
    · rw [if_neg hc] at h
      exact absurd (congrArg Prod.snd h) (by simp)

theorem fittingDigits_writeNatural {n m : Nat}
    (h : fittingDigits UInt64.size 0 ((writeNatural n).map digitValue) = (m, [])) :
    m = n ∧ n < UInt64.size := by
  obtain ⟨hm, hlt⟩ := of_fittingDigits_eq (by decide) h
  have hn : Nat.ofDigitChars 10 (writeNatural n) 0 = n := by
    rw [writeNatural_eq]
    exact Nat.ofDigitChars_ten_toDigits
  rw [hn] at hm
  exact ⟨hm, hm ▸ hlt⟩

/-- A numeral is an unsigned integer only if it is spelled without sign, fraction and exponent. -/
theorem eq_ofNat_of_integer? {f : Figure} {n : Nat} (h : f.numeral.integer? = some (.natural n)) :
    f = .ofNat n ∧ n < UInt64.size := by
  obtain ⟨isNegative, whole, fraction, exponent⟩ := f
  unfold Numeral.integer? at h
  split at h
  · rename_i m hfraction hexponent hfit
    obtain rfl := Option.map_eq_none_iff.mp hfraction
    obtain rfl := Option.map_eq_none_iff.mp hexponent
    obtain ⟨rfl, hlt⟩ := fittingDigits_writeNatural hfit
    cases isNegative with
    | false =>
      obtain rfl : m = n := by simpa [Figure.numeral] using h
      exact ⟨rfl, hlt⟩
    | true => simp [Figure.numeral] at h
  · cases h

theorem numeral_read_eq_ok_iff {f : Figure} {n : Nat} :
    f.numeral.read = .ok (.natural n) ↔ f = .ofNat n ∧ n < UInt64.size := by
  constructor
  · intro h
    change f.numeral.value = _ at h
    unfold Numeral.value at h
    split at h
    · rename_i i hi
      obtain rfl := Except.ok.inj h
      exact eq_ofNat_of_integer? hi
    · split at h <;> cases h
  · rintro ⟨rfl, hn⟩
    exact numeral_read hn

/-- A natural number below a bound is read from its figure, and from nothing else. -/
theorem readNatural_figure_eq_ok_iff {bound : Nat} (hb : bound ≤ UInt64.size) (expected : String)
    {f : Figure} {rest : List Token} {x : Nat × List Token} :
    readNatural bound expected (.numeral f.numeral :: rest) = .ok x ↔
      ∃ n < bound, f = .ofNat n ∧ x = (n, rest) := by
  constructor
  · intro h
    simp only [readNatural] at h
    split at h
    · rename_i n hread
      split at h
      · rename_i hn
        exact ⟨n, hn, (numeral_read_eq_ok_iff.mp hread).1, (Except.ok.inj h).symm⟩
      · cases h
    all_goals cases h
  · rintro ⟨n, hn, rfl, rfl⟩
    exact readNatural_numeral hb hn expected rest

end ScopedSettings.Json
