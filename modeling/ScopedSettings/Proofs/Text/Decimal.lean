/-
Numbers in decimal digits: what digits are worth, and how many a number has.
-/
import Mathlib.Algebra.Group.Nat.Defs

namespace ScopedSettings.Text

theorem isDigit_of_mem_toDigits {n : Nat} {c : Char} (h : c ∈ Nat.toDigits 10 n) :
    c.isDigit = true :=
  Nat.isDigit_of_mem_toDigits (by omega) (by omega) h

/-- The character of a digit lies between those of zero and nine. -/
theorem toNat_of_isDigit {c : Char} (h : c.isDigit = true) : 48 ≤ c.toNat ∧ c.toNat ≤ 57 := by
  simp only [Char.isDigit, Bool.and_eq_true, decide_eq_true_eq, UInt32.le_iff_toNat_le] at h
  exact h

theorem le_ofDigitChars (cs : List Char) (n : Nat) : n ≤ Nat.ofDigitChars 10 cs n := by
  induction cs generalizing n with
  | nil => simp
  | cons c cs ih =>
    rw [Nat.ofDigitChars_cons]
    have := ih (10 * n + (c.toNat - '0'.toNat))
    omega

/-- What digits are worth is bounded by how many there are. -/
theorem ofDigitChars_lt (cs : List Char) (h : ∀ c ∈ cs, c.isDigit = true) :
    Nat.ofDigitChars 10 cs 0 < 10 ^ cs.length := by
  induction cs with
  | nil => simp
  | cons c cs ih =>
    have hc : c.toNat - '0'.toNat ≤ 9 := by
      have := toNat_of_isDigit (h c List.mem_cons_self)
      change c.toNat - 48 ≤ 9
      omega
    have hcs := ih fun d hd => h d (List.mem_cons_of_mem _ hd)
    rw [Nat.ofDigitChars_cons, Nat.ofDigitChars_eq_ofDigitChars_zero, List.length_cons,
      Nat.pow_succ, Nat.mul_zero, Nat.zero_add]
    have := Nat.mul_le_mul_left (10 ^ cs.length) hc
    omega

/-- Numbers that are written alike are the same. -/
theorem toString_inj {m n : Nat} (h : toString m = toString n) : m = n := by
  have hvalue := congrArg (fun s => Nat.ofDigitChars 10 s.toList 0) h
  simpa using hvalue

/-- No number is written with a zero in front of other digits. -/
theorem toDigits_ne_zero_cons (n : Nat) (c : Char) (cs : List Char) :
    Nat.toDigits 10 n ≠ '0' :: c :: cs := by
  intro h
  have hlt : n < 10 ^ (c :: cs).length := by
    have hv : Nat.ofDigitChars 10 (Nat.toDigits 10 n) 0 = n := Nat.ofDigitChars_ten_toDigits
    rw [h, Nat.ofDigitChars_cons] at hv
    rw [← hv]
    refine ofDigitChars_lt _ fun d hd => ?_
    refine isDigit_of_mem_toDigits (n := n) ?_
    rw [h]
    exact List.mem_cons_of_mem _ hd
  have hlength := (Nat.length_toDigits_le_iff (by omega) (by simp)).mpr hlt
  rw [h] at hlength
  simp only [List.length_cons] at hlength
  omega

end ScopedSettings.Text
