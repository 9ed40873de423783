/-
Records are read back from the objects they are written as.

`RecordShape.Fills` says that members, one after another, take a draft to
another one: each names a field that the draft has not been given, and the
field reads its value. Whoever writes a record shows this of the members, and
has the record read back from their object (`RecordShape.Fills.read`). And what
no field takes away from a draft holds of every record that is read, whatever the
text (`RecordShape.yields`).
-/
import ScopedSettings.Json.Record
import ScopedSettings.Proofs.Json.Layout

namespace ScopedSettings.Json

variable {δ α : Type}

/-- A reader gives what a value stands for, whatever comes behind the value. -/
def Reader.Reads (r : Reader α) (v : Value) (a : α) : Prop :=
  ∀ rest, r (v.tokens ++ rest) = .ok (a, rest)

/-! ## Single values -/

theorem Reader.Reads.map {r : Reader α} {v : Value} {a : α} (h : r.Reads v a) (f : α → β) :
    (r.map f).Reads v (f a) := by
  intro rest
  simp only [Reader.map, Reader.refine, h rest]

theorem Reader.Reads.refine {r : Reader α} {v : Value} {a : α} (h : r.Reads v a)
    {f : α → Except Misfit β} {b : β} (hf : f a = .ok b) : (r.refine f).Reads v b := by
  intro rest
  simp only [Reader.refine, h rest, hf]

/-- A reader of values that may be null reads those that are not. -/
theorem Reader.Reads.nullable {r : Reader α} {v : Value} {a : α} (h : r.Reads v a)
    (hv : v.tokens.head? ≠ some .null) (hne : v.tokens ≠ []) : r.nullable.Reads v (some a) := by
  intro rest
  have hmap := h.map some rest
  cases ht : v.tokens with
  | nil => exact absurd ht hne
  | cons t ts =>
    rw [ht] at hmap hv
    unfold Reader.nullable
    split
    · simp_all
    · exact hmap

theorem readBool_reads (b : Bool) : readBool.Reads (.bool b) b :=
  fun _ => rfl

theorem readText_reads (expected s : String) : (readText expected).Reads (.text s) s := by
  intro rest
  simp only [Value.tokens, List.singleton_append, readText, spelling_decode]

theorem readNatural_reads {bound n : Nat} (hb : bound ≤ UInt64.size) (h : n < bound)
    (expected : String) : (readNatural bound expected).Reads (.natural n) n :=
  readNatural_numeral hb h expected

/-! ## Members -/

namespace RecordShape

/-- Members that take a draft to another, each read into a field of the shape that had
not been given. -/
inductive Fills (s : RecordShape δ α) : δ → List (String × Value) → δ → Prop
  | nil {d : δ} : Fills s d [] d
  | cons {d d' d'' : δ} {f : Field δ} {key : String} {v : Value} {rest : List (String × Value)}
    (hfield : s.field? key = some f) (hgiven : f.isGiven d = false) (hread : (f.read d).Reads v d')
    (hrest : Fills s d' rest d'') : Fills s d ((key, v) :: rest) d''

theorem nextKey_member (comma : Bool) (key : String) (rest : List Token) :
    nextKey (!comma) ((if comma then [.comma] else []) ++ .text (spelling key) :: rest) =
      .ok (some key, rest) := by
  cases comma with
  | false => simp [nextKey, keyOf, Except.map]
  | true => simp [nextKey, keyOf, Except.map]

theorem readMember_fills (s : RecordShape δ α) {d d' : δ} {f : Field δ} {key : String} {v : Value}
    (hfield : s.field? key = some f) (hgiven : f.isGiven d = false) (hread : (f.read d).Reads v d')
    (rest : List Token) :
    s.readMember d key (.colon :: (v.tokens ++ rest)) = .ok (d', rest) := by
  simp [readMember, hfield, hgiven, afterColon, hread rest, within]

/-- Members that fill a draft are read into it, up to the end of their object. -/
theorem Fills.readMembers {s : RecordShape δ α} {d d' : δ} {ms : List (String × Value)} {a : α}
    (h : s.Fills d ms d') (ha : s.record d' = .ok a) (comma : Bool) (rest : List Token) {fuel : Nat}
    (hfuel : ms.length < fuel) :
    s.readMembers fuel (!comma) d ((Members.ofList ms).tokens comma ++ rest) = .ok (a, rest) := by
  obtain ⟨fuel, rfl⟩ : ∃ n, fuel = n + 1 := ⟨fuel - 1, by omega⟩
  induction h generalizing comma fuel with
  | @nil d =>
    have hform : s.form d = .ok a := by simp only [form, ha]
    cases comma <;>
      simp only [Members.ofList, Members.tokens, List.singleton_append, RecordShape.readMembers,
        nextKey, hform] <;> rfl
  | @cons d d' d'' f key v ms hfield hgiven hread _ ih =>
    have hkey := nextKey_member comma key
      (.colon :: (v.tokens ++ ((Members.ofList ms).tokens true ++ rest)))
    have hmember := readMember_fills s hfield hgiven hread
      ((Members.ofList ms).tokens true ++ rest)
    obtain ⟨fuel, rfl⟩ : ∃ n, fuel = n + 1 := ⟨fuel - 1, by simp at hfuel; omega⟩
    have hrest := ih ha true fuel (by simpa using hfuel)
    simp only [Members.ofList, Members.tokens, List.append_assoc, List.cons_append]
    rw [RecordShape.readMembers, hkey]
    dsimp only
    rw [hmember]
    exact hrest

theorem length_tokens_ofList (ms : List (String × Value)) (comma : Bool) :
    ms.length < ((Members.ofList ms).tokens comma).length := by
  induction ms generalizing comma with
  | nil => simp [Members.ofList, Members.tokens]
  | cons m ms ih =>
    have := ih true
    simp only [Members.ofList, Members.tokens, List.length_append, List.length_cons]
    omega

/-- A record is read from the object of the members that fill its draft. -/
theorem Fills.read {s : RecordShape δ α} {d : δ} {ms : List (String × Value)} {a : α}
    (h : s.Fills s.empty ms d) (ha : s.record d = .ok a) : s.read.Reads (.ofMembers ms) a := by
  intro rest
  have hlength := length_tokens_ofList ms false
  exact h.readMembers ha false rest (by simp; omega)

end RecordShape

/-! ## What is never read -/

/-- Has all that a reader can give this property? -/
def Reader.Yields (r : Reader α) (P : α → Prop) : Prop :=
  ∀ ts a rest, r ts = .ok (a, rest) → P a

theorem Reader.yields_true (r : Reader α) : r.Yields fun _ => True :=
  fun _ _ _ _ => trivial

theorem Reader.Yields.refine {r : Reader α} {P : α → Prop} (h : r.Yields P)
    {f : α → Except Misfit β} {Q : β → Prop} (hf : ∀ a b, P a → f a = .ok b → Q b) :
    (r.refine f).Yields Q := by
  intro ts b rest hread
  unfold Reader.refine at hread
  split at hread
  · cases hread
  · rename_i a rest' hr
    split at hread
    · rename_i b' hb
      cases hread
      exact hf a b (h ts a rest hr) hb
    · cases hread

theorem Reader.Yields.map {r : Reader α} {P : α → Prop} (h : r.Yields P) {f : α → β} {Q : β → Prop}
    (hf : ∀ a, P a → Q (f a)) : (r.map f).Yields Q := by
  refine h.refine fun a b ha hb => ?_
  cases hb
  exact hf a ha

theorem Reader.Yields.nullable {r : Reader α} {P : α → Prop} (h : r.Yields P) :
    r.nullable.Yields fun a? => ∀ a, a? = some a → P a := by
  intro ts a? rest hread
  unfold Reader.nullable at hread
  split at hread
  · cases hread
    rintro a ⟨⟩
  · have hmap : (r.map some).Yields fun a? => ∀ a, a? = some a → P a := h.map fun a ha => by
      rintro _ ⟨⟩
      exact ha
    exact hmap ts a? rest hread

namespace RecordShape

variable {s : RecordShape δ α} {P : δ → Prop} {Q : α → Prop}

theorem yields_readMember (hfields : ∀ f ∈ s.fields, ∀ d, P d → (f.read d).Yields P) {d : δ}
    (hd : P d) (key : String) : (s.readMember d key).Yields P := by
  intro ts d' rest hread
  unfold readMember at hread
  split at hread
  · rename_i f hfield
    split at hread
    · cases hread
    split at hread
    · cases hread
    · rename_i ts' hcolon
      cases hvalue : f.read d ts' with
      | error p =>
        rw [hvalue] at hread
        cases hread
      | ok x =>
        rw [hvalue] at hread
        cases hread
        exact hfields f (List.mem_of_find?_eq_some hfield) d hd ts' d' rest hvalue
  · split at hread
    · cases hread
    split at hread
    · cases hread
    · rename_i ts' hcolon
      cases hskip : skip ts' with
      | error p =>
        rw [hskip] at hread
        cases hread
      | ok rest' =>
        rw [hskip] at hread
        cases hread
        exact hd

variable (hrecord : ∀ d a, P d → s.record d = .ok a → Q a)
include hrecord

theorem yields_form {d : δ} (hd : P d) (rest : List Token) {x : α × List Token}
    (h : ((s.form d).map fun a => (a, rest)) = .ok x) : Q x.1 := by
  unfold form at h
  cases ha : s.record d with
  | error m =>
    rw [ha] at h
    cases h
  | ok a =>
    rw [ha] at h
    cases h
    exact hrecord d a hd ha

variable (hfields : ∀ f ∈ s.fields, ∀ d, P d → (f.read d).Yields P)
include hfields

theorem yields_readMembers (fuel : Nat) (first : Bool) {d : δ} (hd : P d) :
    (s.readMembers fuel first d).Yields Q := by
  induction fuel generalizing first d with
  | zero =>
    intro ts a rest hread
    cases hread
  | succ fuel ih =>
    intro ts a rest hread
    unfold readMembers at hread
    split at hread
    · cases hread
    · exact yields_form hrecord hd _ hread
    · split at hread
      · cases hread
      · rename_i key ts' _ _ d' ts'' hmember
        exact ih false (yields_readMember hfields hd key ts' d' ts'' hmember) ts'' a rest hread

theorem yields_readItems {fs : List (Field δ)} (hfs : ∀ f ∈ fs, f ∈ s.fields) (i : Nat) {d : δ}
    (hd : P d) : (s.readItems fs i d).Yields Q := by
  induction fs generalizing i d with
  | nil =>
    intro ts a rest hread
    unfold readItems at hread
    cases ha : s.form d with
    | error p =>
      rw [ha] at hread
      cases hread
    | ok b =>
      rw [ha] at hread
      dsimp only at hread
      cases hend : listEnd ts with
      | error p =>
        rw [hend] at hread
        cases hread
      | ok rest' =>
        rw [hend] at hread
        cases hread
        exact yields_form hrecord hd rest (x := (a, rest)) (by rw [ha]; rfl)
  | cons f fs ih =>
    intro ts a rest hread
    unfold readItems at hread
    split at hread
    · cases hread
    · split at hread
      · cases hread
      · exact yields_form hrecord hd _ hread
    · rename_i item _ _
      cases hvalue : f.read d item with
      | error p =>
        rw [hvalue] at hread
        cases hread
      | ok x =>
        rw [hvalue] at hread
        have hd' := hfields f (hfs f List.mem_cons_self) d hd item x.1 x.2 hvalue
        exact ih (fun g hg => hfs g (List.mem_cons_of_mem _ hg)) (i + 1) hd' _ a rest hread

/-- What holds of the empty draft, and stays true whatever is read into a draft, is true of
the draft of every record that is read. -/
theorem yields (hempty : P s.empty) : s.read.Yields Q := by
  intro ts a rest hread
  unfold read at hread
  split at hread
  · exact yields_readMembers hrecord hfields _ _ hempty _ a rest hread
  · exact yields_readItems hrecord hfields (fun _ hf => hf) 0 hempty _ a rest hread
  · cases hread

end RecordShape

/-- A whole text is read as what its only value stands for. -/
theorem Reader.Reads.whole {r : Reader α} {v : Value} {a : α} (h : r.Reads v a) :
    r.whole v.tokens = .ok a := by
  have := h []
  rw [List.append_nil] at this
  unfold Reader.whole
  rw [this]

end ScopedSettings.Json
