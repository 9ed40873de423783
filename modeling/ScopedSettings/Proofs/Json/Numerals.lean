/-
Written numbers are read back: the digits of a number are scanned as one
numeral, and the numeral's value is the number.

Digits have no zero in front of others (`Text.toDigits_ne_zero_cons`), so they are
scanned as the whole part of a numeral (`scanNumeral_whole`), and the numeral ends
where they end (`scanNumeral_writeNatural`), as long as what follows could not go on
with it.
-/
import ScopedSettings.Json.Reader
import ScopedSettings.Json.Value
import ScopedSettings.Proofs.Text.Decimal

namespace ScopedSettings.Json

theorem isDigit_eq (c : Char) : isDigit c = c.isDigit := by
  simp only [isDigit, Char.isDigit, Char.le_def]

theorem writeNatural_eq (n : Nat) : writeNatural n = Nat.toDigits 10 n :=
  Nat.toList_repr

/-- The value of a digit's character. -/
def digitValue (c : Char) : Nat :=
  c.toNat - '0'.toNat

/-! ## Scanning digits -/

/-- Does a text not start with a digit? -/
def EndsDigits (rest : List Char) : Prop :=
  ∀ c ∈ rest.head?, isDigit c = false

theorem takeWhile_append_of_ends {cs rest : List Char} (h : ∀ c ∈ cs, isDigit c = true)
    (hr : EndsDigits rest) : (cs ++ rest).takeWhile isDigit = cs := by
  rw [List.takeWhile_append_of_pos h]
  cases rest with
  | nil => simp
  | cons c rest => simp [hr c (by simp)]

theorem dropWhile_append_of_ends {cs rest : List Char} (h : ∀ c ∈ cs, isDigit c = true)
    (hr : EndsDigits rest) : (cs ++ rest).dropWhile isDigit = rest := by
  rw [List.dropWhile_append_of_pos h]
  cases rest with
  | nil => rfl
  | cons c rest => simp [hr c (by simp)]

theorem scanDigits_append {cs rest : List Char} (h : ∀ c ∈ cs, isDigit c = true)
    (hr : EndsDigits rest) : scanDigits (cs ++ rest) = (cs.map digitValue, rest) := by
  unfold scanDigits
  rw [takeWhile_append_of_ends h hr, dropWhile_append_of_ends h hr]
  rfl

theorem isDigit_of_mem_writeNatural {n : Nat} {c : Char} (h : c ∈ writeNatural n) :
    isDigit c = true := by
  rw [writeNatural_eq] at h
  rw [isDigit_eq]
  exact Nat.isDigit_of_mem_toDigits (by omega) (by omega) h

/-! ## The value of digits -/

/-- Digits fit below a bound if the number they spell does. -/
theorem fittingDigits_eq {bound : Nat} (cs : List Char) (n : Nat)
    (h : Nat.ofDigitChars 10 cs n < bound) :
    fittingDigits bound n (cs.map digitValue) = (Nat.ofDigitChars 10 cs n, []) := by
  induction cs generalizing n with
  | nil => simp [fittingDigits]
  | cons c cs ih =>
    rw [Nat.ofDigitChars_cons] at h ⊢
    have hle := Text.le_ofDigitChars cs (10 * n + (c.toNat - '0'.toNat))
    have happend : appendDigit? bound n (digitValue c) = some (10 * n + (c.toNat - '0'.toNat)) := by
      unfold appendDigit? digitValue
      rw [if_pos (by omega), Nat.mul_comm]
    rw [List.map_cons, fittingDigits, happend]
    exact ih _ h

/-! ## Numerals -/

/-- The numeral of a number. -/
def numeral (n : Nat) : Numeral :=
  ⟨false, (writeNatural n).map digitValue, none, none, none⟩

/-- Can what follows a numeral of digits not go on with it? -/
def EndsNumeral (rest : List Char) : Prop :=
  ∀ c ∈ rest.head?, isDigit c = false ∧ c ≠ '.' ∧ c ≠ 'e' ∧ c ≠ 'E'

theorem EndsNumeral.endsDigits {rest : List Char} (h : EndsNumeral rest) : EndsDigits rest :=
  fun c hc => (h c hc).1

theorem scanExponent_of_ends (n : Numeral) {rest : List Char} (h : EndsNumeral rest) :
    scanExponent n rest = (n, rest) := by
  have hmark : afterExponentMark? rest = none := by
    cases rest with
    | nil => rfl
    | cons c rest =>
      obtain ⟨-, -, he, hE⟩ := h c rfl
      unfold afterExponentMark?
      split <;> simp_all
  unfold scanExponent
  rw [hmark]

/-- Without a point there is no fraction to be scanned. -/
theorem scanFraction_of_ne (n : Numeral) {rest : List Char} (h : ∀ c ∈ rest.head?, c ≠ '.') :
    scanFraction n rest = scanExponent n rest := by
  unfold scanFraction
  split
  · exact absurd rfl (h '.' rfl)
  · rfl

theorem scanFraction_of_ends (n : Numeral) {rest : List Char} (h : EndsNumeral rest) :
    scanFraction n rest = (n, rest) := by
  rw [scanFraction_of_ne n fun c hc => (h c hc).2.1, scanExponent_of_ends n h]

/-- The digits of a number are scanned as the whole part of a numeral. -/
theorem scanNumeral_whole (negative : Bool) (n : Nat) {rest : List Char} (h : EndsDigits rest) :
    scanNumeral negative (writeNatural n ++ rest) =
      scanFraction ⟨negative, (writeNatural n).map digitValue, none, none, none⟩ rest := by
  have hscan : scanDigits (writeNatural n ++ rest) = ((writeNatural n).map digitValue, rest) :=
    scanDigits_append (fun _ => isDigit_of_mem_writeNatural) h
  unfold scanNumeral
  split
  · rename_i hd
    rw [hscan, Prod.mk.injEq, List.map_eq_nil_iff, writeNatural_eq] at hd
    exact absurd hd.1 Nat.toDigits_ne_nil
  · rename_i d ds rest' hd
    rw [hscan, Prod.mk.injEq, List.map_eq_cons_iff] at hd
    obtain ⟨⟨c, cs, hcs, hc, hds⟩, -⟩ := hd
    obtain ⟨c', cs', rfl, -, -⟩ := List.map_eq_cons_iff.mp hds
    have hdigit := isDigit_of_mem_writeNatural (n := n) (c := c) (by simp [hcs])
    have hzero : c = '0' := by
      simp only [isDigit, Bool.and_eq_true, decide_eq_true_eq] at hdigit
      have h₁ : '0'.toNat ≤ c.toNat := hdigit.1
      have h₂ : c.toNat - '0'.toNat = 0 := hc
      exact Char.toNat_inj.mp (by omega)
    rw [writeNatural_eq, hzero] at hcs
    exact absurd hcs (Text.toDigits_ne_zero_cons n c' cs')
  · rename_i hd
    rw [hscan, Prod.mk.injEq] at hd
    obtain ⟨rfl, rfl⟩ := hd
    rfl

theorem scanNumeral_writeNatural (n : Nat) {rest : List Char} (h : EndsNumeral rest) :
    scanNumeral false (writeNatural n ++ rest) = (numeral n, rest) := by
  rw [scanNumeral_whole false n h.endsDigits]
  exact scanFraction_of_ends _ h

/-- A number below two to the sixty-four is read back from its numeral. -/
theorem numeral_read {n : Nat} (h : n < UInt64.size) : (numeral n).read = .ok (.natural n) := by
  have hvalue : Nat.ofDigitChars 10 (writeNatural n) 0 = n := by
    rw [writeNatural_eq]
    exact Nat.ofDigitChars_ten_toDigits
  have hfit : fittingDigits UInt64.size 0 (numeral n).whole = (n, []) := by
    rw [← hvalue] at h
    have hfit := fittingDigits_eq (writeNatural n) 0 h
    rwa [hvalue] at hfit
  have hinteger : (numeral n).integer? = some (.natural n) := by
    unfold Numeral.integer?
    rw [hfit]
    rfl
  change (numeral n).value = _
  unfold Numeral.value
  rw [hinteger]

/-- A number of the bound's range is read back. -/
theorem readNatural_numeral {bound n : Nat} (hb : bound ≤ UInt64.size) (h : n < bound)
    (expected : String) (rest : List Token) :
    readNatural bound expected (.numeral (numeral n) :: rest) = .ok (n, rest) := by
  simp only [readNatural, numeral_read (Nat.lt_of_lt_of_le h hb), if_pos h]

end ScopedSettings.Json
