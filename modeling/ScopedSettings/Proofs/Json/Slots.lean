/-
What records are read from, whatever the document.

A record shape whose fields each have a slot of their own in the draft
(`RecordShape.Slots`) takes just the objects in which every slot has at most one
member, which spells its content (`Slots.read_object_iff`). Nothing there speaks of the
order of the members, nor of members of other names, unless the shape refuses them. A list
is read as the object that pairs its items with the names of the fields
(`Slots.read_list_eq_ok_iff_of_pairs`).
-/
import Mathlib.Data.List.Forall2
import ScopedSettings.Json.Record
import ScopedSettings.Proofs.Json.Readers

namespace ScopedSettings.Json

variable {α β δ : Type}

/-! ## Slots -/

/-- What each field of a shape stands for in the draft: a slot of its own, which the field
fills from the documents that spell its content. -/
structure RecordShape.Slots (s : RecordShape δ α) (ι : Type) [DecidableEq ι] where
  Content : ι → Type
  name : ι → String
  field : ι → Field δ
  /-- The slots in the order of declaration. -/
  order : List ι
  get : δ → (i : ι) → Option (Content i)
  set : (i : ι) → Content i → δ → δ
  /-- The draft with the given slots. -/
  ofSlots : ((i : ι) → Option (Content i)) → δ
  Spells : (i : ι) → Document → Content i → Prop
  fields_eq : s.fields = order.map field
  mem_order : ∀ i, i ∈ order
  order_nodup : order.Nodup
  field_name : ∀ i, (field i).name = name i
  name_injective : ∀ i j, name i = name j → i = j
  isGiven_eq : ∀ i d, (field i).isGiven d = (get d i).isSome
  read_takes : ∀ i d, ((field i).read d).Takes fun v d' => ∃ c, Spells i v c ∧ set i c d = d'
  get_empty : ∀ i, get s.empty i = none
  get_ofSlots : ∀ f i, get (ofSlots f) i = f i
  get_set_self : ∀ i c d, get (set i c d) i = some c
  get_set_of_ne : ∀ i c d j, j ≠ i → get (set i c d) j = get d j
  eq_of_get : ∀ d d', (∀ i, get d i = get d' i) → d = d'

/-- The values of the members of a name. -/
def valuesOf (name : String) (entries : List (Entry Document)) : List Document :=
  (entries.filter fun e => e.name.Spells name).map (·.value)

/-- May an object of the shape have such a member? -/
def RecordShape.Admits (s : RecordShape δ α) (e : Entry Document) : Prop :=
  ∃ k, e.name.Spells k ∧ (s.strict = true → k ∈ s.fields.map (·.name))

/-- A slot stays as it is where there is no value, is filled from one value while it is open,
and takes no more than that. -/
def FillsSlot (spells : Document → β → Prop) (old : Option β) : List Document → Option β → Prop
  | [], new => new = old
  | [v], new => old = none ∧ ∃ c, spells v c ∧ new = some c
  | _ :: _ :: _, _ => False

theorem mem_valuesOf {k : String} {entries : List (Entry Document)} {v : Document} :
    v ∈ valuesOf k entries ↔ ∃ e ∈ entries, e.name.Spells k ∧ e.value = v := by
  simp [valuesOf, and_assoc]

theorem valuesOf_cons_of_spells {k : String} {e : Entry Document} (h : e.name.Spells k)
    (entries : List (Entry Document)) :
    valuesOf k (e :: entries) = e.value :: valuesOf k entries := by
  simp [valuesOf, h]

theorem valuesOf_cons_of_not {k : String} {e : Entry Document} (h : ¬e.name.Spells k)
    (entries : List (Entry Document)) : valuesOf k (e :: entries) = valuesOf k entries := by
  simp [valuesOf, h]

theorem valuesOf_append (k : String) (entries entries' : List (Entry Document)) :
    valuesOf k (entries ++ entries') = valuesOf k entries ++ valuesOf k entries' := by
  simp [valuesOf]

theorem valuesOf_eq_nil {k : String} {entries : List (Entry Document)}
    (h : ∀ e ∈ entries, ¬e.name.Spells k) : valuesOf k entries = [] := by
  simpa [valuesOf] using h

/-- There are as many values of a name as the name's code units occur among those of the keys. -/
theorem length_valuesOf (k : String) (entries : List (Entry Document)) :
    (valuesOf k entries).length =
      (entries.map fun e => e.name.units).count (k.toList.flatMap utf16) := by
  rw [valuesOf, List.length_map, ← List.countP_eq_length_filter, List.count, List.countP_map]
  refine List.countP_congr fun e _ => ?_
  rw [decide_eq_true_iff, Function.comp_apply, beq_iff_eq]
  exact Iff.rfl

/-- An open slot can be filled from one value at most, and only if that spells a content. -/
theorem exists_fillsSlot_iff {spells : Document → β → Prop} {vs : List Document} :
    (∃ c, FillsSlot spells none vs c) ↔ vs.length ≤ 1 ∧ ∀ v ∈ vs, ∃ c, spells v c := by
  match vs with
  | [] => simp [FillsSlot]
  | [v] => simp [FillsSlot, exists_comm (α := Option β)]
  | v :: v' :: vs => simp [FillsSlot]

theorem FillsSlot.length_le {spells : Document → β → Prop} {old new : Option β}
    {vs : List Document} (h : FillsSlot spells old vs new) : vs.length ≤ 1 := by
  match vs, h with
  | [], _ => exact Nat.zero_le 1
  | [v], _ => exact Nat.le_refl 1

theorem FillsSlot.perm {spells : Document → β → Prop} {old new : Option β}
    {vs vs' : List Document} (hp : vs.Perm vs') (h : FillsSlot spells old vs new) :
    FillsSlot spells old vs' new := by
  match vs, h with
  | [], h => rwa [← hp.nil_eq]
  | [v], h => rwa [← hp.singleton_eq]

theorem valuesOf_perm {entries entries' : List (Entry Document)} (h : entries.Perm entries')
    (k : String) : (valuesOf k entries).Perm (valuesOf k entries') :=
  (h.filter _).map _

namespace RecordShape.Slots

variable {ι : Type} [DecidableEq ι] {s : RecordShape δ α} (P : s.Slots ι)

theorem field?_name (i : ι) : s.field? (P.name i) = some (P.field i) := by
  unfold RecordShape.field?
  rw [P.fields_eq]
  have hfind : ∀ is : List ι, i ∈ is →
      (is.map P.field).find? (fun f => f.name == P.name i) = some (P.field i) := by
    intro is hi
    induction is with
    | nil => cases hi
    | cons j is ih =>
      rw [List.map_cons, List.find?_cons, P.field_name]
      by_cases hj : j = i
      · rw [hj, beq_self_eq_true]
      · have hbeq : (P.name j == P.name i) = false :=
          beq_eq_false_iff_ne.mpr fun h => hj (P.name_injective j i h)
        rw [hbeq]
        exact ih ((List.mem_cons.mp hi).resolve_left fun h => hj h.symm)
  exact hfind _ (P.mem_order i)

theorem field?_eq_none {k : String} (h : ∀ i, P.name i ≠ k) : s.field? k = none := by
  unfold RecordShape.field?
  rw [P.fields_eq, List.find?_eq_none]
  intro f hf
  obtain ⟨i, -, rfl⟩ := List.mem_map.mp hf
  simpa [P.field_name] using h i

theorem mem_names_iff {k : String} : k ∈ s.fields.map (·.name) ↔ ∃ i, P.name i = k := by
  simp [P.fields_eq, P.field_name, P.mem_order]

theorem readMember_name (i : ι) (d : δ) (v : Document) (rest : List Token) (x : δ × List Token) :
    s.readMember d (P.name i) (.colon :: (v.tokens ++ rest)) = .ok x ↔
      P.get d i = none ∧ ∃ c, P.Spells i v c ∧ x = (P.set i c d, rest) := by
  unfold RecordShape.readMember
  rw [P.field?_name i]
  dsimp only
  rw [P.isGiven_eq i d]
  cases hget : P.get d i with
  | some c => simp [refuse]
  | none =>
    have htakes := P.read_takes i d v rest x
    simp only [Option.isSome_none, Bool.false_eq_true, if_false, afterColon, true_and]
    cases hread : (P.field i).read d (v.tokens ++ rest) with
    | error p =>
      rw [hread] at htakes
      simp only [within, reduceCtorEq, false_iff] at htakes ⊢
      rintro ⟨c, hc, rfl⟩
      exact htakes ⟨_, ⟨c, hc, rfl⟩, rfl⟩
    | ok y =>
      rw [hread] at htakes
      rw [within, htakes]
      constructor
      · rintro ⟨d', ⟨c, hc, rfl⟩, rfl⟩
        exact ⟨c, hc, rfl⟩
      · rintro ⟨c, hc, rfl⟩
        exact ⟨_, ⟨c, hc, rfl⟩, rfl⟩

theorem readMember_other {k : String} (h : ∀ i, P.name i ≠ k) (d : δ) (v : Document)
    (rest : List Token) (x : δ × List Token) :
    s.readMember d k (.colon :: (v.tokens ++ rest)) = .ok x ↔
      s.strict = false ∧ x = (d, rest) := by
  unfold RecordShape.readMember
  rw [P.field?_eq_none h]
  cases hs : s.strict with
  | true => simp [refuse, within]
  | false => simp [afterColon, v.skip_tokens, Except.map, within, eq_comm]

/-! ### Objects -/

/-- Members that take a draft to another: none is refused, and each slot is filled by the
members of its name. -/
def Gathers (d : δ) (entries : List (Entry Document)) (d' : δ) : Prop :=
  (∀ e ∈ entries, s.Admits e) ∧
    ∀ i, FillsSlot (P.Spells i) (P.get d i) (valuesOf (P.name i) entries) (P.get d' i)

theorem gathers_nil {d d' : δ} : P.Gathers d [] d' ↔ d' = d := by
  simp only [Gathers, List.not_mem_nil, false_implies, implies_true, true_and, valuesOf,
    List.filter_nil, List.map_nil, FillsSlot]
  exact ⟨fun h => P.eq_of_get d' d h, fun h => by simp [h]⟩

/-- A member of another name leaves the draft as it is, unless it is refused. -/
theorem gathers_cons_other {e : Entry Document} {k : String} (hk : e.name.Spells k)
    (h : ∀ i, P.name i ≠ k) {entries : List (Entry Document)} {d d' : δ} :
    P.Gathers d (e :: entries) d' ↔ s.strict = false ∧ P.Gathers d entries d' := by
  have hadmits : s.Admits e ↔ s.strict = false := by
    constructor
    · rintro ⟨k', hk', hstrict⟩
      rw [hk'.unique hk, P.mem_names_iff] at hstrict
      by_contra hs
      obtain ⟨i, hi⟩ := hstrict (by simpa using hs)
      exact h i hi
    · intro hs
      exact ⟨k, hk, by simp [hs]⟩
  have hvalues : ∀ i, valuesOf (P.name i) (e :: entries) = valuesOf (P.name i) entries :=
    fun i => valuesOf_cons_of_not (fun hi => h i (hi.unique hk)) entries
  simp only [Gathers, List.forall_mem_cons, hadmits, hvalues, and_assoc]

/-- A member of a slot's name fills the slot if it is open. -/
theorem gathers_cons_name {e : Entry Document} {i : ι} (hi : e.name.Spells (P.name i))
    {entries : List (Entry Document)} {d d' : δ} :
    P.Gathers d (e :: entries) d' ↔
      P.get d i = none ∧ ∃ c, P.Spells i e.value c ∧ P.Gathers (P.set i c d) entries d' := by
  have hadmits : s.Admits e := ⟨_, hi, fun _ => P.mem_names_iff.mpr ⟨i, rfl⟩⟩
  have hvalues : ∀ j, j ≠ i → valuesOf (P.name j) (e :: entries) = valuesOf (P.name j) entries :=
    fun j hj => valuesOf_cons_of_not (fun h => hj (P.name_injective j i (h.unique hi))) entries
  have hself := valuesOf_cons_of_spells hi entries
  constructor
  · rintro ⟨hadmits', hfills⟩
    have hfill := hfills i
    rw [hself] at hfill
    cases hrest : valuesOf (P.name i) entries with
    | cons v vs => rw [hrest] at hfill; exact hfill.elim
    | nil =>
      rw [hrest] at hfill
      obtain ⟨hopen, c, hc, hnew⟩ := hfill
      refine ⟨hopen, c, hc, fun e' he' => hadmits' e' (List.mem_cons_of_mem _ he'), fun j => ?_⟩
      by_cases hj : j = i
      · subst hj
        rw [hrest, P.get_set_self]
        exact hnew
      · rw [P.get_set_of_ne i c d j hj, ← hvalues j hj]
        exact hfills j
  · rintro ⟨hopen, c, hc, hadmits', hfills⟩
    refine ⟨List.forall_mem_cons.mpr ⟨hadmits, hadmits'⟩, fun j => ?_⟩
    have hfill := hfills j
    by_cases hj : j = i
    · subst hj
      rw [P.get_set_self] at hfill
      rw [hself]
      cases hrest : valuesOf (P.name j) entries with
      | nil =>
        rw [hrest] at hfill
        exact ⟨hopen, c, hc, hfill⟩
      | cons v vs =>
        rw [hrest] at hfill
        cases vs with
        | nil => exact absurd hfill.1 (by simp)
        | cons v' vs => exact hfill.elim
    · rw [P.get_set_of_ne i c d j hj] at hfill
      rw [hvalues j hj]
      exact hfill

theorem nextKey_literal (comma : Bool) (l : Literal) (rest : List Token) :
    nextKey (!comma) ((if comma then [.comma] else []) ++ .text l.spelling :: rest) =
      match l.spelling.decode with
      | .ok k => .ok (some k, rest)
      | .error f => fail f := by
  cases comma <;> simp only [nextKey, keyOf, Bool.not_false, Bool.not_true, if_true, if_false,
    List.nil_append, List.singleton_append, Bool.false_eq_true, reduceCtorEq] <;>
    cases l.spelling.decode <;> rfl

/-- A member whose name stands for no string is not read past. -/
theorem readMembers_unnamed {e : Entry Document} (h : ∀ k, ¬e.name.Spells k) (fuel : Nat)
    (comma : Bool) (d : δ) (entries : List (Entry Document)) (rest : List Token)
    (x : α × List Token) :
    s.readMembers (fuel + 1) (!comma) d (entriesTokens (e :: entries) comma ++ rest) ≠ .ok x := by
  obtain ⟨before, name, afterName, beforeValue, value, after⟩ := e
  rw [entriesTokens, RecordShape.readMembers, List.append_assoc, List.cons_append, nextKey_literal]
  cases hdecode : name.spelling.decode with
  | ok k => exact absurd (Literal.decode_eq_ok_iff.mp hdecode) (h k)
  | error f => simp [fail]

/-- A member whose name does is read, and then those behind it. -/
theorem readMembers_named {e : Entry Document} {k : String} (h : e.name.Spells k) (fuel : Nat)
    (comma : Bool) (d : δ) (entries : List (Entry Document)) (rest : List Token)
    (x : α × List Token) :
    s.readMembers (fuel + 1) (!comma) d (entriesTokens (e :: entries) comma ++ rest) = .ok x ↔
      ∃ d₁ rest₁, s.readMember d k
          (.colon :: (e.value.tokens ++ (entriesTokens entries true ++ rest))) = .ok (d₁, rest₁) ∧
        s.readMembers fuel false d₁ rest₁ = .ok x := by
  obtain ⟨before, name, afterName, beforeValue, value, after⟩ := e
  rw [entriesTokens, RecordShape.readMembers, List.append_assoc, List.cons_append, nextKey_literal,
    Literal.decode_eq_ok_iff.mpr h]
  simp only [List.cons_append, List.append_assoc]
  cases s.readMember d k (.colon :: (value.tokens ++ (entriesTokens entries true ++ rest))) with
  | error p => simp
  | ok y => simp [Prod.ext_iff]

theorem readMembers_eq_ok_iff (entries : List (Entry Document)) (comma : Bool) (d : δ)
    (rest : List Token) (x : α × List Token) {fuel : Nat} (hfuel : entries.length < fuel) :
    s.readMembers fuel (!comma) d (entriesTokens entries comma ++ rest) = .ok x ↔
      ∃ d' a, P.Gathers d entries d' ∧ s.record d' = .ok a ∧ x = (a, rest) := by
  obtain ⟨fuel, rfl⟩ : ∃ n, fuel = n + 1 := ⟨fuel - 1, by omega⟩
  induction entries generalizing comma d fuel with
  | nil =>
    have hkey : nextKey (!comma) (Token.objectClose :: rest) = .ok (none, rest) := rfl
    rw [entriesTokens, List.singleton_append, RecordShape.readMembers, hkey]
    simp only [gathers_nil, exists_and_left, exists_eq_left, RecordShape.form]
    cases hrecord : s.record d with
    | error m => simp [refuse, Except.map]
    | ok a => simp [Except.map, eq_comm]
  | cons e entries ih =>
    obtain ⟨fuel, rfl⟩ : ∃ n, fuel = n + 1 := ⟨fuel - 1, by simp at hfuel; omega⟩
    have ih := fun d₁ => ih true d₁ fuel (by simpa using hfuel)
    by_cases hnamed : ∃ k, e.name.Spells k
    · obtain ⟨k, hk⟩ := hnamed
      rw [readMembers_named hk]
      by_cases hi : ∃ i, P.name i = k
      · obtain ⟨i, rfl⟩ := hi
        simp only [P.readMember_name, P.gathers_cons_name hk]
        constructor
        · rintro ⟨d₁, rest₁, ⟨hopen, c, hc, heq⟩, hrest⟩
          obtain ⟨rfl, rfl⟩ := Prod.mk.inj heq
          obtain ⟨d', a, hd', ha, hx⟩ := (ih _).mp hrest
          exact ⟨d', a, ⟨hopen, c, hc, hd'⟩, ha, hx⟩
        · rintro ⟨d', a, ⟨hopen, c, hc, hd'⟩, ha, hx⟩
          exact ⟨_, _, ⟨hopen, c, hc, rfl⟩, (ih _).mpr ⟨d', a, hd', ha, hx⟩⟩
      · have hother : ∀ i, P.name i ≠ k := fun i h => hi ⟨i, h⟩
        simp only [P.readMember_other hother, P.gathers_cons_other hk hother]
        constructor
        · rintro ⟨d₁, rest₁, ⟨hs, heq⟩, hrest⟩
          obtain ⟨rfl, rfl⟩ := Prod.mk.inj heq
          obtain ⟨d', a, hd', ha, hx⟩ := (ih _).mp hrest
          exact ⟨d', a, ⟨hs, hd'⟩, ha, hx⟩
        · rintro ⟨d', a, ⟨hs, hd'⟩, ha, hx⟩
          exact ⟨_, _, ⟨hs, rfl⟩, (ih _).mpr ⟨d', a, hd', ha, hx⟩⟩
    · have hunnamed : ∀ k, ¬e.name.Spells k := fun k hk => hnamed ⟨k, hk⟩
      constructor
      · exact fun h => absurd h (readMembers_unnamed hunnamed _ comma d entries rest x)
      · rintro ⟨d', a, ⟨hadmits, -⟩, -⟩
        obtain ⟨k, hk, -⟩ := hadmits e List.mem_cons_self
        exact absurd hk (hunnamed k)

theorem length_entriesTokens (entries : List (Entry Document)) (comma : Bool) :
    entries.length < (entriesTokens entries comma).length := by
  induction entries generalizing comma with
  | nil => simp [entriesTokens]
  | cons e entries ih =>
    have := ih true
    simp only [entriesTokens, List.length_append, List.length_cons]
    omega

/-- An object is read just where its members fill the draft of a record. -/
theorem read_object_iff (gap : Blanks) (entries : List (Entry Document)) (rest : List Token)
    (x : α × List Token) :
    s.read ((Document.object gap entries).tokens ++ rest) = .ok x ↔
      ∃ d a, P.Gathers s.empty entries d ∧ s.record d = .ok a ∧ x = (a, rest) := by
  have hlength := length_entriesTokens entries false
  rw [Document.tokens, List.cons_append, RecordShape.read]
  exact P.readMembers_eq_ok_iff entries false s.empty rest x (by simp; omega)

/-- Members fill some draft if none is refused and each slot can be filled. -/
theorem exists_gathers_iff {d : δ} {entries : List (Entry Document)} :
    (∃ d', P.Gathers d entries d') ↔
      (∀ e ∈ entries, s.Admits e) ∧
        ∀ i, ∃ c, FillsSlot (P.Spells i) (P.get d i) (valuesOf (P.name i) entries) c := by
  constructor
  · rintro ⟨d', hadmits, hfills⟩
    exact ⟨hadmits, fun i => ⟨_, hfills i⟩⟩
  · rintro ⟨hadmits, hfills⟩
    choose f hf using hfills
    refine ⟨P.ofSlots f, hadmits, fun i => ?_⟩
    rw [P.get_ofSlots]
    exact hf i

/-- The order of the members does not matter. -/
theorem Gathers.perm {d d' : δ} {entries entries' : List (Entry Document)}
    (hp : entries.Perm entries') (h : P.Gathers d entries d') : P.Gathers d entries' d' :=
  ⟨fun e he => h.1 e (hp.mem_iff.mpr he), fun i => (h.2 i).perm (valuesOf_perm hp _)⟩

/-! ### Lists -/

/-- Items that take a draft to another, each filling the next of some slots. -/
def Lines (d : δ) : List ι → List (Item Document) → δ → Prop
  | _, [], d' => d' = d
  | [], _ :: _, _ => False
  | i :: is, ⟨_, value, _⟩ :: items, d' =>
    ∃ c, P.Spells i value c ∧ Lines (P.set i c d) is items d'

/-- The slots that may be left out at the end of a list. -/
def IsOptional (i : ι) : Prop :=
  (P.field i).optional = true

theorem leadingOptional_eq_none_iff (fs : List (Field δ)) :
    leadingOptional fs = none ↔ ∀ f ∈ fs, f.optional = true := by
  induction fs with
  | nil => simp [leadingOptional]
  | cons f fs ih =>
    rw [leadingOptional]
    split <;> simp_all

theorem nextItem_document (comma : Bool) (d : Document) (rest : List Token) :
    nextItem (!comma) ((if comma then [.comma] else []) ++ d.tokens ++ rest) =
      .ok (some (d.tokens ++ rest), []) := by
  obtain ⟨t, ts, hts, ht, -⟩ := d.tokens_eq_cons
  rw [hts]
  cases comma <;> simp [nextItem]

theorem listEnd_itemsTokens_cons (item : Item Document) (items : List (Item Document))
    (comma : Bool) (rest rest' : List Token) :
    listEnd (itemsTokens (item :: items) comma ++ rest) ≠ .ok rest' := by
  obtain ⟨before, value, after⟩ := item
  obtain ⟨t, ts, hts, ht, -⟩ := value.tokens_eq_cons
  rw [itemsTokens, hts]
  intro h
  unfold listEnd at h
  split at h
  · cases comma <;> simp_all
  all_goals cases h

theorem nextItem_end (first : Bool) (rest : List Token) :
    nextItem first (.listClose :: rest) = .ok (none, rest) :=
  rfl

/-- The record of a draft, with the tokens behind it. -/
theorem form_map_eq_ok_iff (d : δ) (rest : List Token) (x : α × List Token) :
    (s.form d).map (fun a => (a, rest)) = .ok x ↔ ∃ a, s.record d = .ok a ∧ x = (a, rest) := by
  unfold RecordShape.form
  cases s.record d with
  | error m => simp [refuse, Except.map]
  | ok a => simp [Except.map, eq_comm]

theorem readItems_eq_ok_iff (is : List ι) (items : List (Item Document)) (n : Nat) (d : δ)
    (rest : List Token) (x : α × List Token) :
    s.readItems (is.map P.field) n d (itemsTokens items (n != 0) ++ rest) = .ok x ↔
      (∀ i ∈ is.drop items.length, P.IsOptional i) ∧
        ∃ d' a, P.Lines d is items d' ∧ s.record d' = .ok a ∧ x = (a, rest) := by
  induction is generalizing items n d with
  | nil =>
    rw [List.map_nil, RecordShape.readItems]
    cases items with
    | nil =>
      have hform := form_map_eq_ok_iff (s := s) d rest x
      rw [itemsTokens, List.singleton_append]
      simp only [Lines, List.drop_nil, List.not_mem_nil, false_implies, implies_true, true_and,
        exists_and_left, exists_eq_left]
      rw [← hform]
      cases s.form d <;> rfl
    | cons item items =>
      simp only [Lines, false_and, exists_false, and_false, iff_false]
      cases hform : s.form d with
      | error p => simp
      | ok a =>
        dsimp only
        cases hend : listEnd (itemsTokens (item :: items) (n != 0) ++ rest) with
        | error p => simp [Except.map]
        | ok rest' => exact absurd hend (listEnd_itemsTokens_cons item items _ rest rest')
  | cons i is ih =>
    cases items with
    | nil =>
      rw [itemsTokens, List.singleton_append, List.map_cons, RecordShape.readItems, nextItem_end]
      dsimp only
      have hoptional : leadingOptional (P.field i :: is.map P.field) = none ↔
          ∀ j ∈ i :: is, P.IsOptional j := by
        rw [leadingOptional_eq_none_iff, ← List.map_cons, List.forall_mem_map]
        rfl
      rw [List.length_nil, List.drop_zero, ← hoptional]
      simp only [Lines, exists_and_left, exists_eq_left]
      cases leadingOptional (P.field i :: is.map P.field) with
      | some k => simp [refuse]
      | none =>
        rw [form_map_eq_ok_iff]
        simp
    | cons item items =>
      obtain ⟨before, value, after⟩ := item
      have hnext := nextItem_document (n != 0) value (itemsTokens items true ++ rest)
      have hfirst : (n == 0) = !(n != 0) := by simp [bne]
      have hread := P.read_takes i d value (itemsTokens items true ++ rest)
      have ih := fun d₁ => ih items (n + 1) d₁
      have hlater : (n + 1 != 0) = true := by simp
      rw [hlater] at ih
      rw [List.map_cons, RecordShape.readItems, itemsTokens, hfirst, List.append_assoc, hnext]
      simp only [Lines, List.length_cons, List.drop_succ_cons]
      cases hvalue : (P.field i).read d (value.tokens ++ (itemsTokens items true ++ rest)) with
      | error p =>
        rw [hvalue] at hread
        simp only [within, reduceCtorEq, false_iff]
        rintro ⟨-, d', a, ⟨c, hc, -⟩, -⟩
        exact absurd ((hread (_, _)).mpr ⟨_, ⟨c, hc, rfl⟩, rfl⟩) (by simp)
      | ok y =>
        rw [hvalue] at hread
        obtain ⟨_, ⟨c, hc, rfl⟩, rfl⟩ := (hread y).mp rfl
        rw [within]
        dsimp only
        rw [ih]
        have honly : ∀ c', P.Spells i value c' → P.set i c' d = P.set i c d := by
          intro c' hc'
          have := (hread (_, _)).mpr ⟨_, ⟨c', hc', rfl⟩, rfl⟩
          exact (congrArg Prod.fst (Except.ok.inj this)).symm
        constructor
        · rintro ⟨hoptional, d', a, hd', ha, hx⟩
          exact ⟨hoptional, d', a, ⟨c, hc, hd'⟩, ha, hx⟩
        · rintro ⟨hoptional, d', a, ⟨c', hc', hd'⟩, ha, hx⟩
          rw [honly c' hc'] at hd'
          exact ⟨hoptional, d', a, hd', ha, hx⟩

/-- A list is read just where its items, one for each slot up to those that may be left out,
fill the draft of a record. -/
theorem read_list_iff (gap : Blanks) (items : List (Item Document)) (rest : List Token)
    (x : α × List Token) :
    s.read ((Document.list gap items).tokens ++ rest) = .ok x ↔
      (∀ i ∈ P.order.drop items.length, P.IsOptional i) ∧
        ∃ d a, P.Lines s.empty P.order items d ∧ s.record d = .ok a ∧ x = (a, rest) := by
  rw [Document.tokens, List.cons_append, RecordShape.read, P.fields_eq]
  exact P.readItems_eq_ok_iff P.order items 0 s.empty rest x

/-! ### Lists as objects -/

/-- Entries that pair items with the names of slots. -/
def Pairs (is : List ι) (items : List (Item Document)) (entries : List (Entry Document)) : Prop :=
  List.Forall₂ (fun i e => e.name.Spells (P.name i)) is entries ∧
    items.map (·.value) = entries.map (·.value)

/-- Items fill slots as the entries do that pair them with the names of the slots. -/
theorem lines_iff_gathers {is : List ι} (hnodup : is.Nodup) {items : List (Item Document)}
    {entries : List (Entry Document)} (h : P.Pairs (is.take items.length) items entries) {d d' : δ}
    (hopen : ∀ i ∈ is, P.get d i = none) :
    P.Lines d is items d' ↔ P.Gathers d entries d' := by
  induction is generalizing items entries d with
  | nil =>
    obtain ⟨hnames, hvalues⟩ := h
    rw [List.take_nil, List.forall₂_nil_left_iff] at hnames
    subst hnames
    obtain rfl := List.map_eq_nil_iff.mp hvalues
    rw [Lines, P.gathers_nil]
  | cons i is ih =>
    obtain ⟨hnames, hvalues⟩ := h
    cases items with
    | nil =>
      obtain rfl := List.map_eq_nil_iff.mp hvalues.symm
      rw [Lines, P.gathers_nil]
    | cons item items =>
      obtain ⟨before, value, after⟩ := item
      rw [List.length_cons, List.take_succ_cons, List.forall₂_cons_left_iff] at hnames
      obtain ⟨e, entries, hname, hnames, rfl⟩ := hnames
      rw [List.map_cons, List.map_cons, List.cons.injEq] at hvalues
      obtain ⟨rfl, hvalues⟩ := hvalues
      obtain ⟨hi, hnodup⟩ := List.nodup_cons.mp hnodup
      rw [P.gathers_cons_name hname]
      simp only [Lines, hopen i List.mem_cons_self, true_and]
      refine exists_congr fun c => and_congr_right fun _ => ih hnodup ⟨hnames, hvalues⟩ ?_
      intro j hj
      rw [P.get_set_of_ne i c d j (fun h => hi (h ▸ hj))]
      exact hopen j (List.mem_cons_of_mem _ hj)

/-- A list that is not too short is read as the object that pairs its items with the names of
the fields. -/
theorem read_list_eq_ok_iff_of_pairs {gap gap' : Blanks} {items : List (Item Document)}
    {entries : List (Entry Document)} (h : P.Pairs (P.order.take items.length) items entries)
    (hoptional : ∀ i ∈ P.order.drop items.length, P.IsOptional i) (rest : List Token)
    (x : α × List Token) :
    s.read ((Document.list gap items).tokens ++ rest) = .ok x ↔
      s.read ((Document.object gap' entries).tokens ++ rest) = .ok x := by
  rw [P.read_list_iff, P.read_object_iff, and_iff_right hoptional]
  simp only [P.lines_iff_gathers P.order_nodup h fun i _ => P.get_empty i]

theorem length_le_of_lines {is : List ι} {items : List (Item Document)} {d d' : δ}
    (h : P.Lines d is items d') : items.length ≤ is.length := by
  induction is generalizing items d with
  | nil =>
    cases items with
    | nil => simp
    | cons item items => exact h.elim
  | cons i is ih =>
    cases items with
    | nil => simp
    | cons item items =>
      obtain ⟨c, -, h⟩ := h
      exact Nat.succ_le_succ (ih h)

end RecordShape.Slots

end ScopedSettings.Json
