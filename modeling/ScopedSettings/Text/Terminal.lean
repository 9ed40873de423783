/-
What a text shows once its control sequences are taken out.

A sequence starts with an escape, wherever that stands, and CAN and SUB break
one off. Of the control characters only tabs and line breaks show. They show
inside a sequence too, and then whatever follows them shows up to the next
control character, where the sequence goes on.
-/

namespace ScopedSettings.Text

/-- Where a text stands: outside every control sequence, or in which part of one. -/
inductive Passage
  | ground
  /-- Behind an escape. -/
  | escape
  /-- Behind an escape and a mark, a further character being due. -/
  | mark
  /-- Among the parameters of a command, which a letter ends. -/
  | parameters
  /-- In a title, which a bell ends. -/
  | title
  /-- In a message, which nothing but another sequence ends. -/
  | message
  deriving DecidableEq, Repr

def isLayout (c : Char) : Bool :=
  c == '\t' || c == '\n' || c == '\x0c' || c == '\r'

/-- Does a character outside every sequence show? -/
def showsOnGround (c : Char) : Bool :=
  isLayout c || (' ' ≤ c && c != '\x7f')

/-- Where the character behind an escape leads. -/
def afterEscape (c : Char) : Passage :=
  if c == '[' then .parameters
  else if c == ']' then .title
  else if c == 'P' || c == 'X' || c == '^' || c == '_' then .message
  else if '0' ≤ c && c ≤ '~' then .ground
  else if ' ' ≤ c && c ≤ '/' then .mark
  else .escape

/-- Where a character leads, and whether it shows. -/
def Passage.step (p : Passage) (c : Char) : Passage × Bool :=
  if c == '\x1b' then (.escape, false)
  else if c == '\x18' || c == '\x1a' then (.ground, false)
  else
    match p with
    | .ground => (.ground, showsOnGround c)
    | .escape => (afterEscape c, isLayout c)
    | .mark => (if '0' ≤ c && c ≤ '~' then .ground else .mark, isLayout c)
    | .parameters => (if '@' ≤ c && c ≤ '~' then .ground else .parameters, isLayout c)
    | .title => (if c == '\x07' then .ground else .title, false)
    | .message => (.message, false)

/-- The characters that show from a passage on. In a `run` of characters that show
the passage waits, until a character that is not ASCII ends it for good. -/
def shownFrom (run : Bool) (p : Passage) : List Char → List Char
  | [] => []
  | c :: cs =>
    if run && showsOnGround c then
      c :: shownFrom true (if c.toNat < 128 then p else .ground) cs
    else
      match p.step c with
      | (p, true) => c :: shownFrom true p cs
      | (p, false) => shownFrom false p cs

def shown (s : String) : String :=
  String.ofList (shownFrom false .ground s.toList)

/-- A text whose characters all show stays as it is. -/
theorem shownFrom_of_shows {cs : List Char} (h : ∀ c ∈ cs, showsOnGround c = true) :
    shownFrom true .ground cs = cs := by
  induction cs with
  | nil => rfl
  | cons c cs ih =>
    have hc := h c (by simp)
    have ih := ih fun d hd => h d (by simp [hd])
    unfold shownFrom
    simp only [hc, Bool.and_self, if_true, ite_self, ih]

end ScopedSettings.Text
