/-
Environment variables: names with values, the first of a name holding.

Names and values are Unicode. A variable whose value is not is passed over by whoever asks for
it, environment files included, as if it were not set: here it is left out.
-/

namespace ScopedSettings

abbrev Variables := List (String × String)

namespace Variables

/-- The value of a variable, if it is set. -/
def get? (vs : Variables) (name : String) : Option String :=
  (vs.find? fun v => v.1 == name).map Prod.snd

def behind? : List Char → List Char → Option (List Char)
  | [], cs => some cs
  | _ :: _, [] => none
  | p :: ps, c :: cs => if p == c then behind? ps cs else none

/-- The value found for any text in a variable's place. A variable is held as one text,
its value behind an equals sign, so a text that has such a sign itself finds what
follows it in a value. -/
def search? (vs : Variables) (name : String) : Option String :=
  if name.isEmpty then none
  else
    vs.findSome? fun v =>
      (behind? (name.toList ++ ['=']) (v.1.toList ++ '=' :: v.2.toList)).map String.ofList

def setDefault (vs : Variables) (name value : String) : Variables :=
  if (vs.get? name).isSome then vs else vs ++ [(name, value)]

/-- The natural number a text spells in decimal digits, with `+` allowed before
them, if it is below the bound. -/
def natural? (bound : Nat) (s : String) : Option Nat :=
  let digits := match s.toList with
    | '+' :: rest => rest
    | cs => cs
  if digits.isEmpty then none
  else
    digits.foldl (fun n c =>
      match n with
      | some n =>
        if '0' ≤ c ∧ c ≤ '9' then
          let n := n * 10 + (c.toNat - '0'.toNat)
          if n < bound then some n else none
        else none
      | none => none) (some 0)

end Variables
end ScopedSettings
