/-
What updates are read from, in every spelling.

An update's draft has a slot for each setting (`Update.slots`), so its objects are those
whose members each fill the slot of the setting they name, and whether an object is read
and what it sets can be said of its members as a set (`exists_ofText_object_iff`,
`value_of_ofText`). That their order does not matter, and that null counts as left out,
follows from this alone (`toOption_ofText_object_eq`).
-/
import Mathlib.Data.List.Nodup
import ScopedSettings.Proofs.Json.Slots
import ScopedSettings.Proofs.Settings.RoundTrip
import ScopedSettings.Settings.Setting

namespace ScopedSettings

open Json

/-! ## The values of settings -/

theorem readUInt32_takes : readUInt32.Takes fun d n => d = .number (.ofNat n.toNat) := by
  have hbound : UInt32.size ≤ UInt64.size := by decide
  intro d rest x
  rw [readUInt32, (readNatural_takes hbound "u32").map UInt32.ofNat d rest x]
  refine exists_congr fun n => and_congr_left fun _ => ?_
  constructor
  · rintro ⟨k, ⟨hk, hd⟩, rfl⟩
    rw [UInt32.toNat_ofNat_of_lt' hk, hd]
  · intro hd
    exact ⟨n.toNat, ⟨n.toNat_lt, hd⟩, UInt32.ofNat_toNat⟩

/-- What a setting accepts is what spells one of its values. -/
theorem Setting.accepts_iff (i : Setting) (d : Document) : i.Accepts d ↔ ∃ c, i.Spells d c := by
  cases i with
  | maxUploadMb =>
    constructor
    · rintro ⟨⟨isNegative, whole, fraction, exponent⟩, rfl, rfl, rfl, rfl, hle⟩
      have hlt : whole < UInt32.size := Nat.lt_succ_of_le hle
      refine ⟨UInt32.ofNat whole, ?_⟩
      simp only [Setting.Spells, UInt32.toNat_ofNat_of_lt' hlt, Figure.ofNat]
    · rintro ⟨n, rfl⟩
      exact ⟨.ofNat n.toNat, rfl, rfl, rfl, rfl, Nat.le_of_lt_succ n.toNat_lt⟩
  | enableDeduplication => exact Iff.rfl
  | enableJira => exact Iff.rfl
  | enableProductGrade => exact Iff.rfl
  | enableUserProfileEditable => exact Iff.rfl
  | timeZone => exact Iff.rfl

/-- A document spells one value of a setting at most. -/
theorem Setting.Spells.unique {i : Setting} {d : Document} {c c' : i.Content}
    (h : i.Spells d c) (h' : i.Spells d c') : c = c' := by
  cases i with
  | maxUploadMb =>
    obtain rfl := h
    exact UInt32.toNat_inj.mp (congrArg Figure.whole (Document.number.inj h'))
  | enableDeduplication | enableJira | enableProductGrade | enableUserProfileEditable =>
    obtain rfl := h
    exact Document.bool.inj h'
  | timeZone =>
    obtain ⟨l, rfl, hl⟩ := h
    obtain ⟨l', hl', hz⟩ := h'
    obtain rfl := Document.text.inj hl'
    exact hl.unique hz

theorem Setting.not_spells_null (i : Setting) (c : i.Content) : ¬i.Spells .null c := by
  cases i <;> simp [Setting.Spells, Document.SpellsText]

namespace Update

/-! ## Slots -/

/-- What a draft has been given for a setting. -/
def Draft.get (d : Draft) : (i : Setting) → Option (Option i.Content)
  | .maxUploadMb => d.maxUploadMb
  | .enableDeduplication => d.enableDeduplication
  | .enableJira => d.enableJira
  | .enableProductGrade => d.enableProductGrade
  | .enableUserProfileEditable => d.enableUserProfileEditable
  | .timeZone => d.timeZone

def Draft.set : (i : Setting) → Option i.Content → Draft → Draft
  | .maxUploadMb, v, d => { d with maxUploadMb := some v }
  | .enableDeduplication, v, d => { d with enableDeduplication := some v }
  | .enableJira, v, d => { d with enableJira := some v }
  | .enableProductGrade, v, d => { d with enableProductGrade := some v }
  | .enableUserProfileEditable, v, d => { d with enableUserProfileEditable := some v }
  | .timeZone, v, d => { d with timeZone := some v }

def Draft.ofSlots (f : (i : Setting) → Option (Option i.Content)) : Draft where
  maxUploadMb := f .maxUploadMb
  enableDeduplication := f .enableDeduplication
  enableJira := f .enableJira
  enableProductGrade := f .enableProductGrade
  enableUserProfileEditable := f .enableUserProfileEditable
  timeZone := f .timeZone

theorem Draft.value_update (d : Draft) (i : Setting) : d.update.value i = (d.get i).join := by
  cases i <;> rfl

theorem isSome_field? (i : Setting) : (shape.field? i.name).isSome = true := by
  cases i <;> rfl

/-- The field of a setting takes what spells its value, and null. -/
theorem read_takes (i : Setting) (d : Draft) :
    (((shape.field? i.name).get (isSome_field? i)).read d).Takes fun v d' =>
      ∃ c, Document.OrNull i.Spells v c ∧ Draft.set i c d = d' := by
  have hnull := i.not_spells_null
  cases i with
  | maxUploadMb => exact (readUInt32_takes.nullable hnull).map _
  | enableDeduplication => exact (readBool_takes.nullable hnull).map _
  | enableJira => exact (readBool_takes.nullable hnull).map _
  | enableProductGrade => exact (readBool_takes.nullable hnull).map _
  | enableUserProfileEditable => exact (readBool_takes.nullable hnull).map _
  | timeZone => exact ((readText_takes _).nullable hnull).map _

/-- Each setting has a slot of its own in the draft of an update. -/
def slots : shape.Slots Setting where
  Content i := Option i.Content
  name := Setting.name
  field i := (shape.field? i.name).get (isSome_field? i)
  order := Setting.all
  get := Draft.get
  set := Draft.set
  ofSlots := Draft.ofSlots
  Spells i := Document.OrNull i.Spells
  fields_eq := rfl
  mem_order i := by cases i <;> decide
  order_nodup := by decide
  field_name i := by cases i <;> rfl
  name_injective i j h := by cases i <;> cases j <;> first | rfl | exact absurd h (by decide)
  isGiven_eq i d := by cases i <;> rfl
  read_takes := read_takes
  get_empty i := by cases i <;> rfl
  get_ofSlots f i := by cases i <;> rfl
  get_set_self i c d := by cases i <;> rfl
  get_set_of_ne i c d j h := by cases i <;> cases j <;> first | rfl | exact absurd rfl h
  eq_of_get d d' h := by
    obtain ⟨_, _, _, _, _, _⟩ := d
    obtain ⟨_, _, _, _, _, _⟩ := d'
    have h₁ := h .maxUploadMb
    have h₂ := h .enableDeduplication
    have h₃ := h .enableJira
    have h₄ := h .enableProductGrade
    have h₅ := h .enableUserProfileEditable
    have h₆ := h .timeZone
    simp only [Draft.get] at h₁ h₂ h₃ h₄ h₅ h₆
    subst h₁ h₂ h₃ h₄ h₅ h₆
    rfl

/-! ## Objects -/

theorem ofText_written_eq_ok_iff (before : Blanks) (d : Document) (after : Blanks) (u : Update) :
    ofText (d.written before after) = .ok u ↔ shape.read (d.tokens ++ []) = .ok (u, []) := by
  rw [List.append_nil, ofText, d.tokens_written, Reader.whole, reader]
  cases shape.read d.tokens with
  | error p => simp
  | ok x =>
    obtain ⟨u', rest⟩ := x
    cases rest <;> simp [fail]

/-- An update is read from just the objects whose members fill its draft. -/
theorem ofText_object_eq_ok_iff (before gap after : Blanks) (entries : List (Entry Document))
    (u : Update) :
    ofText ((Document.object gap entries).written before after) = .ok u ↔
      ∃ d, slots.Gathers shape.empty entries d ∧ d.update = u := by
  rw [ofText_written_eq_ok_iff, slots.read_object_iff]
  simp [shape, eq_comm]

theorem admits_iff (e : Entry Document) :
    shape.Admits e ↔ ∃ i : Setting, e.name.Spells i.name := by
  constructor
  · rintro ⟨k, hk, hnames⟩
    obtain ⟨i, rfl⟩ := slots.mem_names_iff.mp (hnames rfl)
    exact ⟨i, hk⟩
  · rintro ⟨i, hi⟩
    exact ⟨i.name, hi, fun _ => slots.mem_names_iff.mpr ⟨i, rfl⟩⟩

/-- Keys that name settings are distinct if none is the key of two members. -/
theorem nodup_keys_iff {entries : List (Entry Document)}
    (h : ∀ e ∈ entries, ∃ i : Setting, e.name.Spells i.name) :
    (entries.map fun e => e.name.units).Nodup ↔
      ∀ i : Setting, (valuesOf i.name entries).length ≤ 1 := by
  rw [List.nodup_iff_count_le_one]
  constructor
  · intro hcount i
    rw [length_valuesOf]
    exact hcount _
  · intro hlength units
    by_cases hmem : units ∈ entries.map fun e => e.name.units
    · obtain ⟨e, he, rfl⟩ := List.mem_map.mp hmem
      obtain ⟨i, hi⟩ := h e he
      rw [hi, ← length_valuesOf]
      exact hlength i
    · rw [List.count_eq_zero_of_not_mem hmem]
      exact Nat.zero_le 1

theorem exists_orNull_iff (i : Setting) (v : Document) :
    (∃ c, Document.OrNull i.Spells v c) ↔ v = .null ∨ i.Accepts v := by
  rw [i.accepts_iff]
  constructor
  · rintro ⟨c, hc⟩
    cases c with
    | none => exact .inl hc
    | some c => exact .inr ⟨c, hc⟩
  · rintro (hv | ⟨c, hc⟩)
    · exact ⟨none, hv⟩
    · exact ⟨some c, hc⟩

/-- An object is read as an update if its keys are distinct names of settings, and each value
is null or one of its setting. -/
theorem exists_ofText_object_iff (before gap after : Blanks) (entries : List (Entry Document)) :
    (∃ u, ofText ((Document.object gap entries).written before after) = .ok u) ↔
      (entries.map fun e => e.name.units).Nodup ∧
        ∀ e ∈ entries, ∃ i : Setting,
          e.name.Spells i.name ∧ (e.value = .null ∨ i.Accepts e.value) := by
  have hread : (∃ u, ofText ((Document.object gap entries).written before after) = .ok u) ↔
      ∃ d, slots.Gathers shape.empty entries d := by
    simp only [ofText_object_eq_ok_iff]
    exact ⟨fun ⟨_, d, hd, _⟩ => ⟨d, hd⟩, fun ⟨d, hd⟩ => ⟨_, d, hd, rfl⟩⟩
  have hfill : ∀ i : Setting, (∃ c, FillsSlot (Document.OrNull i.Spells)
        (Draft.get shape.empty i) (valuesOf i.name entries) c) ↔
      (valuesOf i.name entries).length ≤ 1 ∧
        ∀ v ∈ valuesOf i.name entries, v = .null ∨ i.Accepts v := by
    intro i
    have hopen : Draft.get shape.empty i = none := slots.get_empty i
    rw [hopen, exists_fillsSlot_iff]
    simp only [exists_orNull_iff]
  rw [hread, slots.exists_gathers_iff]
  simp only [admits_iff]
  change ((∀ e ∈ entries, ∃ i : Setting, e.name.Spells i.name) ∧
    ∀ i : Setting, ∃ c, FillsSlot (Document.OrNull i.Spells) (Draft.get shape.empty i)
      (valuesOf i.name entries) c) ↔ _
  simp only [hfill]
  constructor
  · rintro ⟨hnames, hvalues⟩
    refine ⟨(nodup_keys_iff hnames).mpr fun i => (hvalues i).1, fun e he => ?_⟩
    obtain ⟨i, hi⟩ := hnames e he
    exact ⟨i, hi, (hvalues i).2 _ (mem_valuesOf.mpr ⟨e, he, hi, rfl⟩)⟩
  · rintro ⟨hnodup, hvalues⟩
    have hnames : ∀ e ∈ entries, ∃ i : Setting, e.name.Spells i.name := fun e he =>
      let ⟨i, hi, _⟩ := hvalues e he
      ⟨i, hi⟩
    refine ⟨hnames, fun i => ⟨(nodup_keys_iff hnames).mp hnodup i, fun v hv => ?_⟩⟩
    obtain ⟨e, he, hname, rfl⟩ := mem_valuesOf.mp hv
    obtain ⟨j, hj, hvalue⟩ := hvalues e he
    rwa [slots.name_injective i j (hname.unique hj)]

/-- What the members of an object set a setting to. -/
def Sets (entries : List (Entry Document)) (i : Setting) (c : i.Content) : Prop :=
  ∃ e ∈ entries, e.name.Spells i.name ∧ i.Spells e.value c

/-- An object that is read sets what its members say. -/
theorem value_of_ofText {before gap after : Blanks} {entries : List (Entry Document)} {u : Update}
    (h : ofText ((Document.object gap entries).written before after) = .ok u) (i : Setting)
    (c : i.Content) : u.value i = some c ↔ Sets entries i c := by
  obtain ⟨d, ⟨-, hfills⟩, rfl⟩ := (ofText_object_eq_ok_iff before gap after entries u).mp h
  have hfill : FillsSlot (Document.OrNull i.Spells) (Draft.get shape.empty i)
      (valuesOf i.name entries) (d.get i) := hfills i
  have hsets : Sets entries i c ↔ ∃ v ∈ valuesOf i.name entries, i.Spells v c := by
    constructor
    · rintro ⟨e, he, hname, hvalue⟩
      exact ⟨_, mem_valuesOf.mpr ⟨e, he, hname, rfl⟩, hvalue⟩
    · rintro ⟨v, hv, hvalue⟩
      obtain ⟨e, he, hname, rfl⟩ := mem_valuesOf.mp hv
      exact ⟨e, he, hname, hvalue⟩
  rw [hsets, d.value_update]
  match hvs : valuesOf i.name entries, hfill with
  | [], hget =>
    have hget : d.get i = none := hget.trans (slots.get_empty i)
    simp [hget]
  | [v], ⟨_, c', hc', hget⟩ =>
    rw [hget, Option.join_some]
    simp only [List.mem_singleton, exists_eq_left]
    cases c' with
    | none =>
      obtain rfl : v = .null := hc'
      simp [i.not_spells_null c]
    | some c' =>
      exact ⟨fun hcc' => Option.some.inj hcc' ▸ hc', fun hc => congrArg some (hc'.unique hc)⟩

theorem eq_of_value {u u' : Update} (h : ∀ i, u.value i = u'.value i) : u = u' := by
  obtain ⟨_, _, _, _, _, _⟩ := u
  obtain ⟨_, _, _, _, _, _⟩ := u'
  have h₁ := h .maxUploadMb
  have h₂ := h .enableDeduplication
  have h₃ := h .enableJira
  have h₄ := h .enableProductGrade
  have h₅ := h .enableUserProfileEditable
  have h₆ := h .timeZone
  simp only [value] at h₁ h₂ h₃ h₄ h₅ h₆
  subst h₁ h₂ h₃ h₄ h₅ h₆
  rfl

/-- Is an object read as an update? -/
def IsRead (entries : List (Entry Document)) : Prop :=
  (entries.map fun e => e.name.units).Nodup ∧
    ∀ e ∈ entries, ∃ i : Setting, e.name.Spells i.name ∧ (e.value = .null ∨ i.Accepts e.value)

theorem toOption_eq_of_iff {ε α : Type} {x y : Except ε α} (h : ∀ a, x = .ok a ↔ y = .ok a) :
    x.toOption = y.toOption := by
  cases x with
  | error e =>
    cases y with
    | error e' => rfl
    | ok b => exact absurd ((h b).mpr rfl) (by simp)
  | ok a => rw [(h a).mp rfl]

/-- Objects that are both read or both refused, and whose members say the same, are read as the
same update. -/
theorem toOption_ofText_object_eq {before gap after : Blanks}
    {entries entries' : List (Entry Document)} (hread : IsRead entries ↔ IsRead entries')
    (hsets : ∀ i c, Sets entries i c ↔ Sets entries' i c) :
    (ofText ((Document.object gap entries).written before after)).toOption =
      (ofText ((Document.object gap entries').written before after)).toOption := by
  have hvalue : ∀ {entries entries' : List (Entry Document)} {u : Update},
      (IsRead entries ↔ IsRead entries') → (∀ i c, Sets entries i c ↔ Sets entries' i c) →
      ofText ((Document.object gap entries).written before after) = .ok u →
      ofText ((Document.object gap entries').written before after) = .ok u := by
    intro entries entries' u hread hsets h
    obtain ⟨u', h'⟩ := (exists_ofText_object_iff before gap after entries').mpr
      (hread.mp ((exists_ofText_object_iff before gap after entries).mp ⟨u, h⟩))
    have heq : u = u' := eq_of_value fun i => Option.ext fun c => by
      rw [value_of_ofText h, value_of_ofText h', hsets]
    rw [h', heq]
  exact toOption_eq_of_iff fun u =>
    ⟨hvalue hread hsets, hvalue hread.symm fun i c => (hsets i c).symm⟩

theorem isRead_perm {entries entries' : List (Entry Document)} (h : entries.Perm entries') :
    IsRead entries ↔ IsRead entries' := by
  simp only [IsRead, (h.map fun e => e.name.units).nodup_iff, h.mem_iff]

theorem sets_perm {entries entries' : List (Entry Document)} (h : entries.Perm entries')
    (i : Setting) (c : i.Content) : Sets entries i c ↔ Sets entries' i c := by
  simp only [Sets, h.mem_iff]

/-- The order of the members does not matter. -/
theorem toOption_ofText_perm {before gap after : Blanks} {entries entries' : List (Entry Document)}
    (h : entries.Perm entries') :
    (ofText ((Document.object gap entries).written before after)).toOption =
      (ofText ((Document.object gap entries').written before after)).toOption :=
  toOption_ofText_object_eq (isRead_perm h) (sets_perm h)

/-- A null member, the only one of its name, counts as left out. -/
theorem toOption_ofText_null {before gap after : Blanks} {pre post : List (Entry Document)}
    {e : Entry Document} {i : Setting} (hname : e.name.Spells i.name) (hnull : e.value = .null)
    (honly : ∀ e' ∈ pre ++ post, ¬e'.name.Spells i.name) :
    (ofText ((Document.object gap (pre ++ e :: post)).written before after)).toOption =
      (ofText ((Document.object gap (pre ++ post)).written before after)).toOption := by
  rw [toOption_ofText_perm List.perm_middle]
  refine toOption_ofText_object_eq ?_ fun j c => ?_
  · have hkey : e.name.units ∉ (pre ++ post).map fun e => e.name.units := by
      intro hmem
      obtain ⟨e', he', heq⟩ := List.mem_map.mp hmem
      exact honly e' he' (heq.trans hname)
    simp only [IsRead, List.map_cons, List.nodup_cons, hkey, not_false_eq_true, true_and,
      List.forall_mem_cons]
    exact and_congr_right fun _ => and_iff_right ⟨i, hname, .inl hnull⟩
  · simp only [Sets, List.mem_cons, or_and_right, exists_or, exists_eq_left, hnull,
      j.not_spells_null, and_false, false_or]

/-! ## Lists -/

/-- A list of no more items than there are settings is read as the object that pairs them with
the settings' names. -/
theorem toOption_ofText_list {before gap after : Blanks} {items : List (Item Document)}
    {entries : List (Entry Document)}
    (hnames : List.Forall₂ (fun (i : Setting) e => e.name.Spells i.name)
      (Setting.all.take items.length) entries)
    (hvalues : items.map (·.value) = entries.map (·.value)) :
    (ofText ((Document.list gap items).written before after)).toOption =
      (ofText ((Document.object gap entries).written before after)).toOption := by
  refine toOption_eq_of_iff fun u => ?_
  rw [ofText_written_eq_ok_iff, ofText_written_eq_ok_iff]
  refine slots.read_list_eq_ok_iff_of_pairs ⟨hnames, hvalues⟩ (fun i _ => ?_) [] (u, [])
  cases i <;> rfl

theorem ofText_list_of_length {items : List (Item Document)} (h : Setting.all.length < items.length)
    (before gap after : Blanks) :
    ∃ e, ofText ((Document.list gap items).written before after) = .error e := by
  cases hread : ofText ((Document.list gap items).written before after) with
  | error e => exact ⟨e, rfl⟩
  | ok u =>
    rw [ofText_written_eq_ok_iff, slots.read_list_iff] at hread
    obtain ⟨-, d, -, hlines, -⟩ := hread
    exact absurd (slots.length_le_of_lines hlines) (Nat.not_le.mpr h)

/-! ## Changes -/

theorem value_set (u : Update) (change : Change) (i : Setting) :
    (u.set change).value i = (change.argument? i).or (u.value i) := by
  cases change <;> cases i <;> rfl

/-- The last change of a setting says what it is set to. -/
theorem value_ofChanges (changes : List Change) (i : Setting) :
    (ofChanges changes).value i = (changes.filterMap (·.argument? i)).getLast? := by
  have hfold : ∀ u : Update, (changes.foldl set u).value i =
      (changes.filterMap (·.argument? i)).getLast?.or (u.value i) := by
    induction changes with
    | nil => intro u; simp
    | cons change changes ih =>
      intro u
      rw [List.foldl_cons, ih, value_set, List.filterMap_cons]
      cases change.argument? i with
      | none => rfl
      | some c =>
        rw [List.getLast?_cons, Option.some_or]
        cases (changes.filterMap (·.argument? i)).getLast? <;> rfl
  have hempty : empty.value i = none := by cases i <;> rfl
  rw [ofChanges, hfold, hempty, Option.or_none]

theorem exists_argument (change : Change) : ∃ i c, change.argument? i = some c := by
  cases change with
  | maxUploadMb n => exact ⟨.maxUploadMb, n, rfl⟩
  | enableDeduplication b => exact ⟨.enableDeduplication, b, rfl⟩
  | enableJira b => exact ⟨.enableJira, b, rfl⟩
  | enableProductGrade b => exact ⟨.enableProductGrade, b, rfl⟩
  | enableUserProfileEditable b => exact ⟨.enableUserProfileEditable, b, rfl⟩
  | timeZone z => exact ⟨.timeZone, z, rfl⟩

theorem isEmpty_ofChanges_iff (changes : List Change) :
    (ofChanges changes).isEmpty = true ↔ changes = [] := by
  constructor
  · intro h
    rw [isEmpty, beq_iff_eq] at h
    cases changes with
    | nil => rfl
    | cons change changes =>
      obtain ⟨i, c, hc⟩ := exists_argument change
      have hvalue := value_ofChanges (change :: changes) i
      simp only [h, List.filterMap_cons, hc, List.getLast?_cons] at hvalue
      cases i <;> cases hvalue
  · rintro rfl
    rfl

/-! ## Round trips -/

/-- What a setting's value is written as. -/
def written : (i : Setting) → i.Content → Value
  | .maxUploadMb, n => .natural n.toNat
  | .enableDeduplication, b | .enableJira, b | .enableProductGrade, b
  | .enableUserProfileEditable, b => .bool b
  | .timeZone, z => .text z

/-- The field of a setting reads what its values are written as. -/
theorem field_reads (i : Setting) (c : i.Content) (d : Draft) :
    ((slots.field i).read d).Reads (written i c) (Draft.set i (some c) d) := by
  have hbool : ∀ b, readBool.nullable.Reads (.bool b) (some b) := fun b =>
    (readBool_reads b).nullable (by simp [Value.tokens]) (by simp [Value.tokens])
  cases i with
  | maxUploadMb =>
    have hread := (readUInt32_reads c).nullable (by simp [Value.tokens]) (by simp [Value.tokens])
    exact hread.map _
  | enableDeduplication => exact (hbool c).map _
  | enableJira => exact (hbool c).map _
  | enableProductGrade => exact (hbool c).map _
  | enableUserProfileEditable => exact (hbool c).map _
  | timeZone =>
    have hread := (readText_reads "a string" c).nullable (by simp [Value.tokens])
      (by simp [Value.tokens])
    exact hread.map _

/-- The members written for some settings fill the slots of those that are set. -/
theorem fills_flatMap (u : Update) {is : List Setting} (hnodup : is.Nodup) {d : Draft}
    (hopen : ∀ i ∈ is, d.get i = none) :
    ∃ d', shape.Fills d (is.flatMap fun i => member i.name (written i) (u.value i)) d' ∧
      ∀ j, d'.get j = if j ∈ is then (u.value j).map some else d.get j := by
  induction is generalizing d with
  | nil => exact ⟨d, .nil, fun j => by simp⟩
  | cons i is ih =>
    obtain ⟨hi, hnodup⟩ := List.nodup_cons.mp hnodup
    rw [List.flatMap_cons]
    cases hvalue : u.value i with
    | none =>
      obtain ⟨d', hfills, hget⟩ := ih hnodup fun j hj => hopen j (List.mem_cons_of_mem _ hj)
      refine ⟨d', hfills, fun j => ?_⟩
      rw [hget j]
      by_cases hj : j = i
      · subst hj
        simp [hi, hvalue, hopen j List.mem_cons_self]
      · simp [hj]
    | some c =>
      have hset : ∀ j, j ≠ i → (Draft.set i (some c) d).get j = d.get j :=
        slots.get_set_of_ne i (some c) d
      obtain ⟨d', hfills, hget⟩ := ih (d := Draft.set i (some c) d) hnodup fun j hj => by
        rw [hset j fun h => hi (h ▸ hj)]
        exact hopen j (List.mem_cons_of_mem _ hj)
      have hgiven : (slots.field i).isGiven d = false := by
        have hget : slots.get d i = none := hopen i List.mem_cons_self
        rw [slots.isGiven_eq, hget]
        rfl
      refine ⟨d', .cons (slots.field?_name i) hgiven (field_reads i c d) hfills, fun j => ?_⟩
      rw [hget j]
      by_cases hj : j = i
      · subst hj
        have hself : (Draft.set j (some c) d).get j = some (some c) := slots.get_set_self j _ d
        simp [hi, hvalue, hself]
      · simp [hj, hset j hj]

theorem reader_reads (u : Update) : reader.Reads u.toValue u := by
  obtain ⟨d, hfills, hget⟩ := u.fills_flatMap slots.order_nodup fun i _ => slots.get_empty i
  have hvalue : u.toValue =
      .ofMembers (Setting.all.flatMap fun i => member i.name (written i) (u.value i)) := by
    simp only [toValue, Setting.all, List.flatMap_cons, List.flatMap_nil, List.append_nil,
      List.append_assoc]
    rfl
  rw [hvalue]
  refine hfills.read (congrArg Except.ok (eq_of_value fun i => ?_))
  rw [d.value_update, hget i, if_pos (slots.mem_order i)]
  cases u.value i <;> rfl

/-- An update is read back from the text it is written as. -/
theorem ofText_compactText (u : Update) : ofText u.compactText = .ok u := by
  unfold ofText compactText
  rw [tokens_compact, u.reader_reads.whole]

theorem ofText_pretty (u : Update) : ofText u.toValue.pretty = .ok u := by
  unfold ofText
  rw [tokens_pretty, u.reader_reads.whole]

/-! ## The format -/

/-- The format of updates loses nothing and lets nothing pass. An update is read back from the
text it is written as, and the update of some changes has the last of each setting. An object
is read just where its keys are distinct, all of them names of settings, and its values null or
of their settings; it then sets what its members say, whatever their order, and null counts as
left out. A list of up to six items is read as the object that pairs them with the names of the
settings, and a longer one not at all. -/
theorem ofText_strict_and_lossless (before gap after : Blanks) :
    (∀ u : Update, ofText u.compactText = .ok u ∧ ofText u.toValue.pretty = .ok u) ∧
      (∀ changes : List Change,
        (∀ i, (ofChanges changes).value i = (changes.filterMap (·.argument? i)).getLast?) ∧
          ((ofChanges changes).isEmpty = true ↔ changes = [])) ∧
      (∀ entries : List (Entry Document),
        ((∃ u, ofText ((Document.object gap entries).written before after) = .ok u) ↔
          (entries.map fun e => e.name.units).Nodup ∧
            ∀ e ∈ entries, ∃ i : Setting,
              e.name.Spells i.name ∧ (e.value = .null ∨ i.Accepts e.value)) ∧
        (∀ u, ofText ((Document.object gap entries).written before after) = .ok u →
          ∀ i c, u.value i = some c ↔ ∃ e ∈ entries, e.name.Spells i.name ∧ i.Spells e.value c) ∧
        ∀ entries' : List (Entry Document), entries.Perm entries' →
          (ofText ((Document.object gap entries).written before after)).toOption =
            (ofText ((Document.object gap entries').written before after)).toOption) ∧
      (∀ (pre post : List (Entry Document)) (e : Entry Document) (i : Setting),
        e.name.Spells i.name → e.value = .null → (∀ e' ∈ pre ++ post, ¬e'.name.Spells i.name) →
          (ofText ((Document.object gap (pre ++ e :: post)).written before after)).toOption =
            (ofText ((Document.object gap (pre ++ post)).written before after)).toOption) ∧
      ∀ items : List (Item Document),
        (∀ entries : List (Entry Document), items.length ≤ 6 →
          List.Forall₂ (fun (i : Setting) e => e.name.Spells i.name)
            (Setting.all.take items.length) entries →
          items.map (·.value) = entries.map (·.value) →
            (ofText ((Document.list gap items).written before after)).toOption =
              (ofText ((Document.object gap entries).written before after)).toOption) ∧
        (6 < items.length →
          ∃ e, ofText ((Document.list gap items).written before after) = .error e) := by
  refine ⟨fun u => ⟨u.ofText_compactText, u.ofText_pretty⟩,
    fun changes => ⟨value_ofChanges changes, isEmpty_ofChanges_iff changes⟩, fun entries => ?_,
    fun pre post e i hname hnull honly => toOption_ofText_null hname hnull honly, fun items => ?_⟩
  · exact ⟨exists_ofText_object_iff before gap after entries, fun u h => value_of_ofText h,
      fun entries' h => toOption_ofText_perm h⟩
  · exact ⟨fun entries _ hnames hvalues => toOption_ofText_list hnames hvalues,
      fun h => ofText_list_of_length h before gap after⟩

/-- An upload limit and a time zone that is null, in either order, or in their places in a
list. -/
theorem ofText_strict_and_lossless_reordered :
    let limit := Entry.of "max_upload_mb" (.number (.ofNat 7))
    let zone := Entry.of "time_zone" .null
    let text := fun d : Document => d.written .none .none
    (∃ u, ofText (text (.object .none [limit, zone])) = .ok u ∧
        ∀ i c, u.value i = some c ↔
          ∃ e ∈ [limit, zone], e.name.Spells i.name ∧ i.Spells e.value c) ∧
      (ofText (text (.object .none [limit, zone]))).toOption =
        (ofText (text (.object .none [zone, limit]))).toOption ∧
      (ofText (text (.object .none [limit, zone]))).toOption =
        (ofText (text (.object .none [limit]))).toOption ∧
      (ofText (text (.list .none [.of (.number (.ofNat 7))]))).toOption =
        (ofText (text (.object .none [limit]))).toOption ∧
      ∃ e, ofText (text (.list .none (.replicate 7 (.of .null)))) = .error e := by
  intro limit zone text
  obtain ⟨-, -, hobject, hnull, hlist⟩ := ofText_strict_and_lossless .none .none .none
  have hlimit : limit.name.Spells (Setting.name .maxUploadMb) := Literal.spells_ofString _
  have hzone : zone.name.Spells (Setting.name .timeZone) := Literal.spells_ofString _
  have hne : ¬limit.name.Spells (Setting.name .timeZone) := fun h =>
    absurd (h.unique hlimit) (by decide)
  obtain ⟨hread, hvalue, hperm⟩ := hobject [limit, zone]
  obtain ⟨u, hu⟩ := hread.mpr ⟨by
    simpa using fun h : limit.name.units = zone.name.units => hne (h.trans hzone), by
    simp only [List.forall_mem_cons, List.not_mem_nil, false_implies, implies_true, and_true]
    exact ⟨⟨.maxUploadMb, hlimit, .inr ⟨.ofNat 7, rfl, rfl, rfl, rfl, by decide⟩⟩,
      .timeZone, hzone, .inl rfl⟩⟩
  refine ⟨⟨u, hu, hvalue u hu⟩, hperm _ (.swap _ _ _), hnull [limit] [] zone .timeZone hzone rfl ?_,
    (hlist _).1 [limit] (by decide) (.cons hlimit .nil) rfl, (hlist _).2 (by decide)⟩
  simpa using hne

end Update
end ScopedSettings
