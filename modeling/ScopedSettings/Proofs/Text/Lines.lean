/-
Texts of several lines: where they are cut.

A line that holds no break ends at the first break behind it and begins at the last one
before it. So of lines joined by breaks one may hold breaks of its own, and the text still
determines them all, as long as it is known how many stand before it and behind it
(`joined_inj`).
-/
import Mathlib.Data.List.Induction
import ScopedSettings.Proofs.Text.Decimal

namespace ScopedSettings.Text

/-- A text of one line, without a line break. -/
def OneLine (cs : List Char) : Prop :=
  '\n' ∉ cs

instance (cs : List Char) : Decidable (OneLine cs) :=
  inferInstanceAs (Decidable (¬_))

theorem OneLine.reverse {cs : List Char} (h : OneLine cs) : OneLine cs.reverse := by
  simpa [OneLine] using h

theorem oneLine_of_isDigit {cs : List Char} (h : ∀ c ∈ cs, c.isDigit = true) : OneLine cs :=
  fun hmem => absurd (h _ hmem) (by decide)

/-- The first line of a text ends where the first line break stands. -/
theorem cut_first {l l' cs cs' : List Char} (hl : OneLine l) (hl' : OneLine l')
    (h : l ++ '\n' :: cs = l' ++ '\n' :: cs') : l = l' ∧ cs = cs' := by
  induction l generalizing l' with
  | nil =>
    cases l' with
    | nil => simpa using h
    | cons c l' =>
      obtain ⟨rfl, -⟩ := List.cons.inj h
      exact absurd (.head _) hl'
  | cons c l ih =>
    cases l' with
    | nil =>
      obtain ⟨rfl, -⟩ := List.cons.inj h
      exact absurd (.head _) hl
    | cons c' l' =>
      obtain ⟨rfl, hrest⟩ := List.cons.inj h
      obtain ⟨rfl, rfl⟩ := ih (fun hm => hl (.tail _ hm)) (fun hm => hl' (.tail _ hm)) hrest
      exact ⟨rfl, rfl⟩

/-- The last line begins where the last line break stands. -/
theorem cut_last {l l' cs cs' : List Char} (hl : OneLine l) (hl' : OneLine l')
    (h : cs ++ '\n' :: l = cs' ++ '\n' :: l') : cs = cs' ∧ l = l' := by
  have hreverse := congrArg List.reverse h
  simp only [List.reverse_append, List.reverse_cons, List.append_assoc, List.singleton_append]
    at hreverse
  obtain ⟨hlast, hrest⟩ := cut_first hl.reverse hl'.reverse hreverse
  exact ⟨List.reverse_inj.mp hrest, List.reverse_inj.mp hlast⟩

/-- Lines joined by line breaks. -/
abbrev joined (ls : List (List Char)) : List Char :=
  ['\n'].intercalate ls

theorem joined_cons (l : List Char) {ls : List (List Char)} (h : ls ≠ []) :
    joined (l :: ls) = l ++ '\n' :: joined ls := by
  rw [joined, List.intercalate_cons_of_ne_nil h]
  simp

theorem joined_concat {ls : List (List Char)} (h : ls ≠ []) (l : List Char) :
    joined (ls ++ [l]) = joined ls ++ '\n' :: l := by
  induction ls with
  | nil => exact absurd rfl h
  | cons l' ls ih =>
    by_cases hls : ls = []
    · subst hls
      simp [joined]
    · rw [List.cons_append, joined_cons _ (by simp), joined_cons _ hls, ih hls]
      simp

/-- As many lines before the rest of two texts are the same, if each is one line. -/
theorem joined_front_inj {front front' rest rest' : List (List Char)}
    (hfront : ∀ l ∈ front, OneLine l) (hfront' : ∀ l ∈ front', OneLine l)
    (hlength : front.length = front'.length) (hrest : rest ≠ []) (hrest' : rest' ≠ [])
    (h : joined (front ++ rest) = joined (front' ++ rest')) :
    front = front' ∧ joined rest = joined rest' := by
  induction front generalizing front' with
  | nil =>
    obtain rfl : front' = [] := List.eq_nil_of_length_eq_zero hlength.symm
    exact ⟨rfl, h⟩
  | cons l front ih =>
    cases front' with
    | nil => simp at hlength
    | cons l' front' =>
      rw [List.cons_append, List.cons_append, joined_cons _ (by simp [hrest]),
        joined_cons _ (by simp [hrest'])] at h
      obtain ⟨rfl, hlater⟩ := cut_first (hfront l (.head _)) (hfront' l' (.head _)) h
      obtain ⟨rfl, hjoined⟩ := ih (fun l hl => hfront l (.tail _ hl))
        (fun l hl => hfront' l (.tail _ hl)) (Nat.succ.inj hlength) hlater
      exact ⟨rfl, hjoined⟩

/-- As many lines behind the rest of two texts are the same, if each is one line. -/
theorem joined_back_inj {back back' rest rest' : List (List Char)}
    (hback : ∀ l ∈ back, OneLine l) (hback' : ∀ l ∈ back', OneLine l)
    (hlength : back.length = back'.length) (hrest : rest ≠ []) (hrest' : rest' ≠ [])
    (h : joined (rest ++ back) = joined (rest' ++ back')) :
    joined rest = joined rest' ∧ back = back' := by
  induction back using List.reverseRecOn generalizing back' with
  | nil =>
    obtain rfl : back' = [] := List.eq_nil_of_length_eq_zero hlength.symm
    simpa using h
  | append_singleton back l ih =>
    cases back' using List.reverseRecOn with
    | nil => simp at hlength
    | append_singleton back' l' =>
      rw [← List.append_assoc, ← List.append_assoc, joined_concat (by simp [hrest]),
        joined_concat (by simp [hrest'])] at h
      obtain ⟨hbefore, rfl⟩ := cut_last (hback l (by simp)) (hback' l' (by simp)) h
      obtain ⟨hjoined, rfl⟩ := ih (fun l hl => hback l (by simp [hl]))
        (fun l hl => hback' l (by simp [hl])) (by simpa using hlength) hbefore
      exact ⟨hjoined, rfl⟩

/-- A text of lines around one that may hold anything determines them all. -/
theorem joined_inj {front front' back back' : List (List Char)} {middle middle' : List Char}
    (hfront : ∀ l ∈ front, OneLine l) (hfront' : ∀ l ∈ front', OneLine l)
    (hback : ∀ l ∈ back, OneLine l) (hback' : ∀ l ∈ back', OneLine l)
    (hlength : front.length = front'.length) (hlength' : back.length = back'.length)
    (h : joined (front ++ middle :: back) = joined (front' ++ middle' :: back')) :
    front = front' ∧ middle = middle' ∧ back = back' := by
  obtain ⟨hfronts, hrest⟩ := joined_front_inj hfront hfront' hlength (by simp) (by simp) h
  have hrests : joined ([middle] ++ back) = joined ([middle'] ++ back') := hrest
  obtain ⟨hmiddle, hbacks⟩ :=
    joined_back_inj hback hback' hlength' (by simp) (by simp) hrests
  exact ⟨hfronts, by simpa [joined] using hmiddle, hbacks⟩

theorem oneLine_natural (n : Nat) : OneLine (toString n).toList :=
  oneLine_of_isDigit fun c hc => isDigit_of_mem_toDigits (n := n) (by simpa using hc)

theorem toString_truth_inj {a b : Bool} (h : toString a = toString b) : a = b := by
  cases a <;> cases b <;> first | rfl | exact absurd h (by decide)

theorem oneLine_truth (b : Bool) : OneLine (toString b).toList := by
  cases b <;> decide

end ScopedSettings.Text
