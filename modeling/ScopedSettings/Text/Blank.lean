/-
White space in the sense of Unicode's `White_Space` property, and trimming by
it, which leaves nothing exactly of a text of blanks (`trimStart_eq_nil_iff`).
-/

namespace ScopedSettings.Text

/-- The twenty-five code points with Unicode's `White_Space` property. -/
def isBlank (c : Char) : Bool :=
  let n := c.toNat
  (0x09 ≤ n && n ≤ 0x0D) || n == 0x20 || n == 0x85 || n == 0xA0 || n == 0x1680 ||
  (0x2000 ≤ n && n ≤ 0x200A) || n == 0x2028 || n == 0x2029 || n == 0x202F || n == 0x205F ||
  n == 0x3000

def trimStart (cs : List Char) : List Char :=
  cs.dropWhile isBlank

def trimEnd (cs : List Char) : List Char :=
  (trimStart cs.reverse).reverse

/-- The characters between the leading and the trailing blanks. -/
def trim (cs : List Char) : List Char :=
  trimEnd (trimStart cs)

/-- A text without its leading and trailing blanks. -/
def trimmed (s : String) : String :=
  String.ofList (trim s.toList)

/-- A text of blanks only, the empty one included. -/
def isBlankText (s : String) : Bool :=
  s.toList.all isBlank

theorem trimStart_cons {c : Char} (h : isBlank c = true) (cs : List Char) :
    trimStart (c :: cs) = trimStart cs := by
  simp [trimStart, h]

theorem trimStart_of_not_blank {c : Char} (h : isBlank c = false) (cs : List Char) :
    trimStart (c :: cs) = c :: cs := by
  simp [trimStart, h]

/-- Trimming at the start leaves nothing exactly for blanks only. -/
theorem trimStart_eq_nil_iff {cs : List Char} : trimStart cs = [] ↔ cs.all isBlank = true := by
  induction cs with
  | nil => simp [trimStart]
  | cons c cs ih =>
    cases hc : isBlank c with
    | true => simp [trimStart_cons hc, ih, hc]
    | false => simp [trimStart_of_not_blank hc, hc]

end ScopedSettings.Text
