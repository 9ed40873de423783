/-
Reading records.

A record stands in a text as an object of named members in any order or as
the list of its values in the order of declaration. `RecordShape` says what a
record has: its fields, and whether members of other names are refused or
skipped. Values are collected in a draft, which knows what it has been given,
so that a repeated member is refused when its name is read. The draft is turned
into the record once there is no more to be read: in an object that is at its
end, in a list behind the last field, whatever stands there.
-/
import ScopedSettings.Json.Reader

namespace ScopedSettings.Json

/-- One field of a record that is collected in a draft `δ`. -/
structure Field (δ : Type) where
  name : String
  /-- Has the draft been given this field? -/
  isGiven : δ → Bool
  /-- Reads the field's value into the draft. -/
  read : δ → Reader δ
  /-- May the field be left out at the end of a list? -/
  optional : Bool

/-- What a record `α` has, which is collected in a draft `δ`. -/
structure RecordShape (δ α : Type) where
  /-- The words for a record where another value stands. -/
  title : String
  /-- The words for a record where too short a list stands. -/
  lengthTitle : String
  /-- The draft that nothing has been read into. -/
  empty : δ
  fields : List (Field δ)
  /-- Are members of other names refused? -/
  strict : Bool
  /-- The record of a draft. -/
  record : δ → Except Misfit α

def RecordShape.field? (s : RecordShape δ α) (name : String) : Option (Field δ) :=
  s.fields.find? fun f => f.name == name

/-! ## Objects -/

/-- The tokens behind the colon that has to follow a key. -/
def afterColon : List Token → Except Problem (List Token)
  | .colon :: rest => .ok rest
  | [] => fail .endInObject
  | _ :: _ => fail .expectedColon

def keyOf (endFlaw : Flaw) : List Token → Result String
  | .text s :: rest =>
    match s.decode with
    | .ok k => .ok (k, rest)
    | .error f => fail f
  | [] => fail endFlaw
  | _ :: _ => fail .keyNotText

/-- The next key of an object, or `none` and the tokens behind its end. -/
def nextKey (first : Bool) : List Token → Except Problem (Option String × List Token)
  | .objectClose :: rest => .ok (none, rest)
  | [] => fail .endInObject
  | t :: rest =>
    if first then (keyOf .endInObject (t :: rest)).map fun (k, rest) => (some k, rest)
    else if t = .comma then
      match rest with
      | .objectClose :: _ => fail .trailingComma
      | rest => (keyOf .endInValue rest).map fun (k, rest) => (some k, rest)
    else fail .expectedObjectEnd

/-- The member of a key that has been read. What is wrong inside the value, or
with the name, is told at the key; a colon that is not there, at the object. -/
def RecordShape.readMember (s : RecordShape δ α) (draft : δ) (key : String) : Reader δ := fun ts =>
  match s.field? key with
  | some f =>
    if f.isGiven draft then refuse (.duplicateField key)
    else
      match afterColon ts with
      | .error p => .error p
      | .ok rest => within (.key key) (f.read draft rest)
  | none =>
    if s.strict then within (.key key) (refuse (.unknownField key (s.fields.map (·.name))))
    else
      match afterColon ts with
      | .error p => .error p
      | .ok rest => within (.key key) ((skip rest).map fun rest => (draft, rest))

def RecordShape.form (s : RecordShape δ α) (draft : δ) : Except Problem α :=
  match s.record draft with
  | .ok a => .ok a
  | .error m => refuse m

/-- The members of an object up to its end, at most `fuel` of them. -/
def RecordShape.readMembers (s : RecordShape δ α) : Nat → Bool → δ → Reader α
  | 0, _, _, _ => fail .endInObject
  | fuel + 1, first, draft, ts =>
    match nextKey first ts with
    | .error p => .error p
    | .ok (none, rest) => (s.form draft).map fun a => (a, rest)
    | .ok (some key, rest) =>
      match s.readMember draft key rest with
      | .error p => .error p
      | .ok (draft, rest) => s.readMembers fuel false draft rest

/-! ## Lists -/

/-- The tokens of the next item of a list, or `none` and the tokens behind its end. -/
def nextItem (first : Bool) : List Token → Except Problem (Option (List Token) × List Token)
  | .listClose :: rest => .ok (none, rest)
  | [] => fail .endInList
  | t :: rest =>
    if first then .ok (some (t :: rest), [])
    else if t = .comma then
      match rest with
      | .listClose :: _ => fail .trailingComma
      | [] => fail .endInValue
      | _ :: _ => .ok (some rest, [])
    else fail .expectedListEnd

/-- The tokens behind a list's end, which has to follow. -/
def listEnd : List Token → Except Problem (List Token)
  | .listClose :: rest => .ok rest
  | [] => fail .endInList
  | .comma :: .listClose :: _ => fail .trailingComma
  | _ :: _ => fail .trailingCharacters

/-- How many of the fields come before the first that may not be left out. -/
def leadingOptional : List (Field δ) → Option Nat
  | [] => none
  | f :: fs => if f.optional then (leadingOptional fs).map (· + 1) else some 0

/-- The values of a list, field by field, from the `i`-th field on. What is wrong
inside a value is told at its place; what is wrong between values, at the list. -/
def RecordShape.readItems (s : RecordShape δ α) : List (Field δ) → Nat → δ → Reader α
  | [], _, draft, ts =>
    match s.form draft with
    | .error p => .error p
    | .ok a => (listEnd ts).map fun rest => (a, rest)
  | f :: fs, i, draft, ts =>
    match nextItem (i == 0) ts with
    | .error p => .error p
    | .ok (none, rest) =>
      match leadingOptional (f :: fs) with
      | some k => refuse (.wrongLength (i + k) s.lengthTitle)
      | none => (s.form draft).map fun a => (a, rest)
    | .ok (some item, _) =>
      match within (.index i) (f.read draft item) with
      | .error p => .error p
      | .ok (draft, rest) => s.readItems fs (i + 1) draft rest

def RecordShape.read (s : RecordShape δ α) : Reader α
  | .objectOpen :: rest => s.readMembers (rest.length + 1) true s.empty rest
  | .listOpen :: rest => s.readItems s.fields 0 s.empty rest
  | ts => .error (mismatch s.title ts)

def required (name : String) : Option α → Except Misfit α
  | some a => .ok a
  | none => .error (.missingField name)

/-! ## Variants -/

/-- The way a variant is written: by its name alone, or as an object's only member. -/
inductive VariantForm
  | bare
  | withContent

/-- The only key of a variant's object. In an empty object a value is missing
rather than a key of the right kind. -/
def variantKey : Reader String
  | .objectClose :: _ => fail .expectedValue
  | ts => keyOf .endInObject ts

/-- A variant's name and the tokens behind it. -/
def readVariantName : Reader (String × VariantForm)
  | .text s :: rest =>
    match s.decode with
    | .ok k => .ok ((k, .bare), rest)
    | .error f => fail f
  | .objectOpen :: rest => (variantKey.map fun k => (k, .withContent)) rest
  | [] => fail .endInValue
  | _ :: _ => fail .expectedValue

/-- The tokens behind the end of a variant's object. -/
def variantEnd : List Token → Except Problem (List Token)
  | .objectClose :: rest => .ok rest
  | [] => fail .endInObject
  | _ :: _ => fail .expectedValue

/-- One variant of a choice: what its name alone means, and how its content is read. -/
structure Variant (α : Type) where
  name : String
  bare : Except Misfit α
  content : Reader α

def readVariant (variants : List (Variant α)) : Reader α := fun ts =>
  match readVariantName ts with
  | .error p => .error p
  | .ok ((name, form), rest) =>
    match variants.find? fun v => v.name == name with
    | none => refuse (.unknownVariant name (variants.map (·.name)))
    | some v =>
      match form with
      | .bare =>
        match v.bare with
        | .ok a => .ok (a, rest)
        | .error m => refuse m
      | .withContent =>
        match afterColon rest with
        | .error p => .error p
        | .ok rest =>
          match v.content rest with
          | .error p => .error p
          | .ok (a, rest) => (variantEnd rest).map fun rest => (a, rest)

end ScopedSettings.Json
