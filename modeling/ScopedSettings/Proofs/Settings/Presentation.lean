/-
A record is read from every spelling of it.

The draft of a record has a slot for each of its parts (`Settings.slots`), and the members
that spell the record fill them (`SpelledBy.fills`); members of other names fill none, and
the order of the members is not seen by any slot. A setting without a member leaves its
slot open, so that no record comes of the draft, and a slot does not take two members.
-/
import ScopedSettings.Proofs.Settings.UpdateFormat

namespace ScopedSettings

open Json

theorem readUInt64_takes : readUInt64.Takes fun d n => d = .number (.ofNat n.toNat) := by
  intro d rest x
  rw [readUInt64, (readNatural_takes (Nat.le_refl UInt64.size) "u64").map UInt64.ofNat d rest x]
  refine exists_congr fun n => and_congr_left fun _ => ?_
  constructor
  · rintro ⟨k, ⟨hk, hd⟩, rfl⟩
    rw [UInt64.toNat_ofNat_of_lt' hk, hd]
  · intro hd
    exact ⟨n.toNat, ⟨n.toNat_lt, hd⟩, UInt64.ofNat_toNat⟩

namespace Settings

theorem readInstant_takes : readInstant.Takes SpellsInstant := by
  intro d rest x
  rw [readInstant, (readText_takes _).refine _ d rest x]
  refine exists_congr fun t => and_congr_left fun _ => exists_congr fun z =>
    and_congr_right fun _ => ?_
  cases Instant.parse z <;> simp [Except.map]

theorem not_spellsInstant_null (t : Timestamp) : ¬SpellsInstant .null t := by
  simp [SpellsInstant, Document.SpellsText]

/-! ## Slots -/

/-- What a record is made of. -/
inductive Part
  | setting (i : Setting)
  | version
  | updatedAt
  deriving DecidableEq

namespace Part

def all : List Part :=
  Setting.all.map setting ++ [version, updatedAt]

theorem mem_all (p : Part) : p ∈ all := by
  rcases p with ⟨_ | _ | _ | _ | _ | _⟩ | _ | _ <;> decide

def name : Part → String
  | setting i => i.name
  | version => "version"
  | updatedAt => "updated_at"

abbrev Content : Part → Type
  | setting i => i.Content
  | version => UInt64
  | updatedAt => Option Timestamp

def Spells : (p : Part) → Document → p.Content → Prop
  | setting i, d, c => i.Spells d c
  | version, d, n => d = .number (.ofNat n.toNat)
  | updatedAt, d, t => d.OrNull SpellsInstant t

end Part

/-- What a draft has been given for a part. -/
def Draft.get (d : Draft) : (p : Part) → Option p.Content
  | .setting .maxUploadMb => d.maxUploadMb
  | .setting .enableDeduplication => d.enableDeduplication
  | .setting .enableJira => d.enableJira
  | .setting .enableProductGrade => d.enableProductGrade
  | .setting .enableUserProfileEditable => d.enableUserProfileEditable
  | .setting .timeZone => d.timeZone
  | .version => d.version
  | .updatedAt => d.updatedAt

def Draft.set : (p : Part) → p.Content → Draft → Draft
  | .setting .maxUploadMb, v, d => { d with maxUploadMb := some v }
  | .setting .enableDeduplication, v, d => { d with enableDeduplication := some v }
  | .setting .enableJira, v, d => { d with enableJira := some v }
  | .setting .enableProductGrade, v, d => { d with enableProductGrade := some v }
  | .setting .enableUserProfileEditable, v, d => { d with enableUserProfileEditable := some v }
  | .setting .timeZone, v, d => { d with timeZone := some v }
  | .version, v, d => { d with version := some v }
  | .updatedAt, v, d => { d with updatedAt := some v }

def Draft.ofSlots (f : (p : Part) → Option p.Content) : Draft where
  maxUploadMb := f (.setting .maxUploadMb)
  enableDeduplication := f (.setting .enableDeduplication)
  enableJira := f (.setting .enableJira)
  enableProductGrade := f (.setting .enableProductGrade)
  enableUserProfileEditable := f (.setting .enableUserProfileEditable)
  timeZone := f (.setting .timeZone)
  version := f .version
  updatedAt := f .updatedAt

theorem isSome_field? (p : Part) : (shape.field? p.name).isSome = true := by
  cases p with
  | setting i => cases i <;> rfl
  | version => rfl
  | updatedAt => rfl

/-- The field of a part takes what spells it. -/
theorem read_takes (p : Part) (d : Draft) :
    (((shape.field? p.name).get (isSome_field? p)).read d).Takes fun v d' =>
      ∃ c, p.Spells v c ∧ Draft.set p c d = d' := by
  cases p with
  | setting i =>
    cases i with
    | maxUploadMb => exact readUInt32_takes.map _
    | enableDeduplication => exact readBool_takes.map _
    | enableJira => exact readBool_takes.map _
    | enableProductGrade => exact readBool_takes.map _
    | enableUserProfileEditable => exact readBool_takes.map _
    | timeZone => exact (readText_takes _).map _
  | version => exact readUInt64_takes.map _
  | updatedAt => exact (readInstant_takes.nullable not_spellsInstant_null).map _

/-- Each part has a slot of its own in the draft of a record. -/
def slots : shape.Slots Part where
  Content := Part.Content
  name := Part.name
  field p := (shape.field? p.name).get (isSome_field? p)
  order := Part.all
  get := Draft.get
  set := Draft.set
  ofSlots := Draft.ofSlots
  Spells := Part.Spells
  fields_eq := rfl
  mem_order := Part.mem_all
  order_nodup := by decide
  field_name p := by rcases p with ⟨_ | _ | _ | _ | _ | _⟩ | _ | _ <;> rfl
  name_injective p q h := by
    have hinjective : ∀ p ∈ Part.all, ∀ q ∈ Part.all, p.name = q.name → p = q := by decide
    exact hinjective p p.mem_all q q.mem_all h
  isGiven_eq p d := by rcases p with ⟨_ | _ | _ | _ | _ | _⟩ | _ | _ <;> rfl
  read_takes := read_takes
  get_empty p := by rcases p with ⟨_ | _ | _ | _ | _ | _⟩ | _ | _ <;> rfl
  get_ofSlots f p := by rcases p with ⟨_ | _ | _ | _ | _ | _⟩ | _ | _ <;> rfl
  get_set_self p c d := by rcases p with ⟨_ | _ | _ | _ | _ | _⟩ | _ | _ <;> rfl
  get_set_of_ne p c d q h := by
    rcases p with ⟨_ | _ | _ | _ | _ | _⟩ | _ | _ <;>
      rcases q with ⟨_ | _ | _ | _ | _ | _⟩ | _ | _ <;> first | rfl | exact absurd rfl h
  eq_of_get d d' h := by
    obtain ⟨_, _, _, _, _, _, _, _⟩ := d
    obtain ⟨_, _, _, _, _, _, _, _⟩ := d'
    have h₁ := h (.setting .maxUploadMb)
    have h₂ := h (.setting .enableDeduplication)
    have h₃ := h (.setting .enableJira)
    have h₄ := h (.setting .enableProductGrade)
    have h₅ := h (.setting .enableUserProfileEditable)
    have h₆ := h (.setting .timeZone)
    have h₇ := h .version
    have h₈ := h .updatedAt
    simp only [Draft.get] at h₁ h₂ h₃ h₄ h₅ h₆ h₇ h₈
    subst h₁ h₂ h₃ h₄ h₅ h₆ h₇ h₈
    rfl

/-! ## Spellings -/

/-- Do these members spell a record, in the order of declaration? Each setting has a member;
the version may be left out if it is zero, and the last change may be left out or null if there
was none. -/
def SpelledBy (s : Settings) (members : List (Entry Document)) : Prop :=
  ∃ settings version updatedAt, members = settings ++ version ++ updatedAt ∧
    List.Forall₂ (fun i e => e.name.Spells i.name ∧ i.Spells e.value (s.value i))
      Setting.all settings ∧
    (version = [] ∧ s.version = 0 ∨
      ∃ e, version = [e] ∧ e.name.Spells "version" ∧
        e.value = .number (.ofNat s.version.toNat)) ∧
    (updatedAt = [] ∧ s.updatedAt = none ∨
      ∃ e, updatedAt = [e] ∧ e.name.Spells "updated_at" ∧
        e.value.OrNull SpellsInstant s.updatedAt)

/-! ## Objects -/

theorem Draft.settings_eq_ok_iff (d : Draft) (s : Settings) :
    d.settings = .ok s ↔ (∀ i, d.get (.setting i) = some (s.value i)) ∧
      d.version.getD 0 = s.version ∧ d.updatedAt.getD none = s.updatedAt := by
  obtain ⟨d₁, d₂, d₃, d₄, d₅, d₆, version, updatedAt⟩ := d
  constructor
  · intro h
    obtain _ | _ := d₁
    · cases h
    obtain _ | _ := d₂
    · cases h
    obtain _ | _ := d₃
    · cases h
    obtain _ | _ := d₄
    · cases h
    obtain _ | _ := d₅
    · cases h
    obtain _ | _ := d₆
    · cases h
    obtain rfl := Except.ok.inj h
    exact ⟨fun i => by cases i <;> rfl, rfl, rfl⟩
  · rintro ⟨hsettings, hversion, hupdatedAt⟩
    obtain rfl : d₁ = some s.maxUploadMb := hsettings .maxUploadMb
    obtain rfl : d₂ = some s.enableDeduplication := hsettings .enableDeduplication
    obtain rfl : d₃ = some s.enableJira := hsettings .enableJira
    obtain rfl : d₄ = some s.enableProductGrade := hsettings .enableProductGrade
    obtain rfl : d₅ = some s.enableUserProfileEditable := hsettings .enableUserProfileEditable
    obtain rfl : d₆ = some s.timeZone := hsettings .timeZone
    change Except.ok { s with version := version.getD 0, updatedAt := updatedAt.getD none } = _
    rw [show version.getD 0 = s.version from hversion,
      show updatedAt.getD none = s.updatedAt from hupdatedAt]

theorem ofText_written_eq_ok_iff (before : Blanks) (d : Document) (after : Blanks) (s : Settings) :
    ofText (d.written before after) = .ok s ↔ shape.read (d.tokens ++ []) = .ok (s, []) := by
  rw [List.append_nil, ofText, d.tokens_written, Reader.whole, reader]
  cases shape.read d.tokens with
  | error p => simp
  | ok x =>
    obtain ⟨s', rest⟩ := x
    cases rest <;> simp [fail]

/-- A record is read from just the objects whose members fill its draft. -/
theorem ofText_object_eq_ok_iff (before gap after : Blanks) (entries : List (Entry Document))
    (s : Settings) :
    ofText ((Document.object gap entries).written before after) = .ok s ↔
      ∃ d, slots.Gathers shape.empty entries d ∧ d.settings = .ok s := by
  rw [ofText_written_eq_ok_iff, slots.read_object_iff]
  simp [shape, eq_comm]

/-! ## Spellings -/

/-- The members of settings have one value for each. -/
theorem valuesOf_settings {s : Settings} {is : List Setting} (hnodup : is.Nodup)
    {members : List (Entry Document)}
    (h : List.Forall₂ (fun i e => e.name.Spells i.name ∧ i.Spells e.value (s.value i)) is members) :
    (∀ i ∈ is, ∃ v, valuesOf i.name members = [v] ∧ i.Spells v (s.value i)) ∧
      ∀ k, (∀ i ∈ is, i.name ≠ k) → valuesOf k members = [] := by
  induction h with
  | nil => exact ⟨fun i hi => absurd hi List.not_mem_nil, fun k _ => rfl⟩
  | @cons i e is members hhead htail ih =>
    obtain ⟨hname, hvalue⟩ := hhead
    obtain ⟨hi, hnodup⟩ := List.nodup_cons.mp hnodup
    obtain ⟨hvalues, hothers⟩ := ih hnodup
    have hne : ∀ j : Setting, j ≠ i → ¬e.name.Spells j.name := fun j hj h =>
      hj (Update.slots.name_injective j i (h.unique hname))
    constructor
    · intro j hj
      by_cases hji : j = i
      · subst hji
        have hrest : valuesOf j.name members = [] := hothers _ fun j' hj' h =>
          hi (Update.slots.name_injective j' j h ▸ hj')
        exact ⟨e.value, by rw [valuesOf_cons_of_spells hname, hrest], hvalue⟩
      · rw [valuesOf_cons_of_not (hne j hji)]
        exact hvalues j ((List.mem_cons.mp hj).resolve_left hji)
    · intro k hk
      rw [valuesOf_cons_of_not fun h => hk i List.mem_cons_self (hname.unique h)]
      exact hothers k fun j hj => hk j (List.mem_cons_of_mem _ hj)

/-- Members that are missing or one of a name, which leaves its slot as it should be. -/
theorem fills_optional {β : Type} (spells : Document → β → Prop) {name : String} {default : β}
    {c : β} {members : List (Entry Document)}
    (h : members = [] ∧ c = default ∨
      ∃ e, members = [e] ∧ e.name.Spells name ∧ spells e.value c) :
    (∃ x : Option β, x.getD default = c ∧ FillsSlot spells none (valuesOf name members) x) ∧
      ∀ k, k ≠ name → valuesOf k members = [] := by
  obtain ⟨rfl, rfl⟩ | ⟨e, rfl, hname, hvalue⟩ := h
  · exact ⟨⟨none, rfl, rfl⟩, fun k _ => rfl⟩
  · refine ⟨⟨some c, rfl, ?_⟩, fun k hk => valuesOf_cons_of_not (fun h => hk (h.unique hname)) []⟩
    rw [valuesOf_cons_of_spells hname]
    exact ⟨rfl, c, hvalue, rfl⟩

/-- What the members of a spelling leave in the slots. -/
theorem SpelledBy.fills {s : Settings} {members : List (Entry Document)} (h : s.SpelledBy members) :
    ∃ d : Draft, d.settings = .ok s ∧
      ∀ p, FillsSlot p.Spells none (valuesOf p.name members) (d.get p) := by
  obtain ⟨settings, version, updatedAt, rfl, hsettings, hversion, hupdatedAt⟩ := h
  obtain ⟨hvalues, hnone⟩ := valuesOf_settings (by decide) hsettings
  obtain ⟨⟨x, hx, hxfills⟩, hxnone⟩ := fills_optional (Part.Spells .version) hversion
  obtain ⟨⟨y, hy, hyfills⟩, hynone⟩ := fills_optional (Part.Spells .updatedAt) hupdatedAt
  have hdistinct : ∀ i : Setting, i.name ≠ "version" ∧ i.name ≠ "updated_at" := by
    intro i
    cases i <;> decide
  refine ⟨.ofSlots fun
    | .setting i => some (s.value i)
    | .version => x
    | .updatedAt => y, ?_, fun p => ?_⟩
  · exact (Draft.settings_eq_ok_iff _ s).mpr ⟨fun i => by cases i <;> rfl, hx, hy⟩
  · rw [valuesOf_append, valuesOf_append]
    cases p with
    | setting i =>
      obtain ⟨v, hv, hspells⟩ := hvalues i (by cases i <;> decide)
      change FillsSlot _ _ (valuesOf i.name settings ++ valuesOf i.name version ++
        valuesOf i.name updatedAt) _
      rw [hv, hxnone _ (hdistinct i).1, hynone _ (hdistinct i).2]
      exact ⟨rfl, s.value i, hspells, by cases i <;> rfl⟩
    | version =>
      change FillsSlot _ _ (valuesOf "version" settings ++ valuesOf "version" version ++
        valuesOf "version" updatedAt) _
      rw [hnone _ fun i _ => (hdistinct i).1, hynone _ (by decide), List.nil_append,
        List.append_nil]
      exact hxfills
    | updatedAt =>
      change FillsSlot _ _ (valuesOf "updated_at" settings ++ valuesOf "updated_at" version ++
        valuesOf "updated_at" updatedAt) _
      rw [hnone _ fun i _ => (hdistinct i).2, hxnone _ (by decide), List.nil_append,
        List.nil_append]
      exact hyfills

theorem SpelledBy.named {s : Settings} {members : List (Entry Document)} (h : s.SpelledBy members) :
    ∀ e ∈ members, ∃ k, e.name.Spells k := by
  obtain ⟨settings, version, updatedAt, rfl, hsettings, hversion, hupdatedAt⟩ := h
  have hnamed : ∀ e ∈ settings, ∃ k, e.name.Spells k := by
    generalize Setting.all = is at hsettings
    induction hsettings with
    | nil => simp
    | cons hhead _ ih => exact List.forall_mem_cons.mpr ⟨⟨_, hhead.1⟩, ih⟩
  simp only [List.forall_mem_append]
  refine ⟨⟨hnamed, ?_⟩, ?_⟩
  · obtain ⟨rfl, -⟩ | ⟨e, rfl, hname, -⟩ := hversion
    · simp
    · simpa using ⟨_, hname⟩
  · obtain ⟨rfl, -⟩ | ⟨e, rfl, hname, -⟩ := hupdatedAt
    · simp
    · simpa using ⟨_, hname⟩

theorem mem_memberNames_iff {k : String} : k ∈ memberNames ↔ ∃ p : Part, p.name = k :=
  slots.mem_names_iff

/-- A member of a name that is none of the record's. -/
def IsExtra (e : Entry Document) : Prop :=
  ∃ k, e.name.Spells k ∧ k ∉ memberNames

/-- A record is read from the object of members that spell it, in any order and among any
others. -/
theorem ofText_object_of_spelledBy {s : Settings} {members extras entries : List (Entry Document)}
    (h : s.SpelledBy members) (hextras : ∀ e ∈ extras, IsExtra e)
    (hp : (members ++ extras).Perm entries) (before gap after : Blanks) :
    ofText ((Document.object gap entries).written before after) = .ok s := by
  obtain ⟨d, hd, hfills⟩ := h.fills
  have hadmits : ∀ e ∈ entries, shape.Admits e := by
    intro e he
    obtain ⟨k, hk⟩ : ∃ k, e.name.Spells k := by
      rcases List.mem_append.mp (hp.mem_iff.mpr he) with he | he
      · exact h.named e he
      · exact (hextras e he).imp fun k hk => hk.1
    exact ⟨k, hk, by simp [shape]⟩
  refine (ofText_object_eq_ok_iff before gap after entries s).mpr ⟨d, ⟨hadmits, fun p => ?_⟩, hd⟩
  have hnone : valuesOf p.name extras = [] := valuesOf_eq_nil fun e he hname => by
    obtain ⟨k, hk, hother⟩ := hextras e he
    exact hother (mem_memberNames_iff.mpr ⟨p, hname.unique hk⟩)
  have hopen : slots.get shape.empty p = none := slots.get_empty p
  rw [hopen]
  refine FillsSlot.perm (valuesOf_perm hp _) ?_
  change FillsSlot p.Spells none (valuesOf p.name (members ++ extras)) (d.get p)
  rw [valuesOf_append, hnone, List.append_nil]
  exact hfills p

/-- An object without a member for each setting, or with two for the same name, is refused. -/
theorem ofText_object_of_unfit {entries : List (Entry Document)}
    (h : (∃ i : Setting, ∀ e ∈ entries, ¬e.name.Spells i.name) ∨
      ∃ k ∈ memberNames, 2 ≤ entries.countP fun e => e.name.Spells k) (before gap after : Blanks) :
    ∃ e, ofText ((Document.object gap entries).written before after) = .error e := by
  cases hread : ofText ((Document.object gap entries).written before after) with
  | error e => exact ⟨e, rfl⟩
  | ok s =>
    obtain ⟨d, ⟨-, hfills⟩, hd⟩ := (ofText_object_eq_ok_iff before gap after entries s).mp hread
    obtain ⟨i, hi⟩ | ⟨k, hk, hcount⟩ := h
    · have hfill := hfills (.setting i)
      change FillsSlot i.Spells (shape.empty.get (.setting i)) (valuesOf i.name entries)
        (d.get (.setting i)) at hfill
      rw [valuesOf_eq_nil hi, ((Draft.settings_eq_ok_iff d s).mp hd).1 i] at hfill
      exact absurd (hfill.trans (slots.get_empty (.setting i))) (by simp)
    · obtain ⟨p, rfl⟩ := mem_memberNames_iff.mp hk
      have hlength := (hfills p).length_le
      change (valuesOf p.name entries).length ≤ 1 at hlength
      rw [valuesOf, List.length_map, ← List.countP_eq_length_filter] at hlength
      exact absurd hcount (Nat.not_le.mpr (Nat.lt_succ_of_le hlength))

/-! ## Lists -/

/-- A record is read from the list of the values that spell it, in the order of declaration. -/
theorem ofText_list_of_spelledBy {s : Settings} {members : List (Entry Document)}
    {items : List (Item Document)} (h : s.SpelledBy members)
    (hnames : List.Forall₂ (fun k e => e.name.Spells k) (memberNames.take members.length) members)
    (hvalues : items.map (·.value) = members.map (·.value)) (before gap after : Blanks) :
    ofText ((Document.list gap items).written before after) = .ok s := by
  have hobject := ofText_object_of_spelledBy h (List.forall_mem_nil _)
    (.of_eq (List.append_nil members)) before gap after
  rw [ofText_written_eq_ok_iff] at hobject ⊢
  have hlength : items.length = members.length := by
    simpa using congrArg List.length hvalues
  refine (slots.read_list_eq_ok_iff_of_pairs ⟨?_, hvalues⟩ ?_ [] (s, [])).mpr hobject
  · have hmap : memberNames = Part.all.map Part.name := rfl
    rw [hmap, ← List.map_take, List.forall₂_map_left_iff] at hnames
    rw [hlength]
    exact hnames
  · have hsettings : 6 ≤ items.length := by
      obtain ⟨settings, version, updatedAt, rfl, hsettings, -⟩ := h
      have := hsettings.length_eq
      simp only [List.length_append] at hlength
      have hall : Setting.all.length = 6 := rfl
      omega
    have hlast : ∀ p ∈ Part.all.drop 6, slots.IsOptional p := by
      intro p hp
      obtain rfl | rfl : p = .version ∨ p = .updatedAt := by simpa [Part.all, Setting.all] using hp
      · rfl
      · rfl
    intro p hp
    refine hlast p ((List.drop_sublist_drop_left _ hsettings).subset hp)

/-- The reader of records looks at what a text says and not at how it is written. It reads a
record from any object of members that spell it, whatever their order, their white space, their
escapes and the members of other names among them, and from the list of the same values in the
order of declaration. An object in which a setting is missing or a name stands twice it does
not read, whatever else stands there. -/
theorem ofText_presentation (s : Settings) (before gap after : Blanks) :
    (∀ members extras entries : List (Entry Document), s.SpelledBy members →
      (∀ e ∈ extras, IsExtra e) → (members ++ extras).Perm entries →
        ofText ((Document.object gap entries).written before after) = .ok s) ∧
      (∀ (members : List (Entry Document)) (items : List (Item Document)), s.SpelledBy members →
        List.Forall₂ (fun k e => e.name.Spells k) (memberNames.take members.length) members →
        items.map (·.value) = members.map (·.value) →
          ofText ((Document.list gap items).written before after) = .ok s) ∧
      ∀ entries : List (Entry Document),
        (∃ i : Setting, ∀ e ∈ entries, ¬e.name.Spells i.name) ∨
          (∃ k ∈ memberNames, 2 ≤ entries.countP fun e => e.name.Spells k) →
        ∃ e, ofText ((Document.object gap entries).written before after) = .error e :=
  ⟨fun _ _ _ h hextras hp => ofText_object_of_spelledBy h hextras hp before gap after,
    fun _ _ h hnames hvalues => ofText_list_of_spelledBy h hnames hvalues before gap after,
    fun _ h => ofText_object_of_unfit h before gap after⟩

/-- The defaults, their time zone with an escape and their last change null, backwards and
behind a member that nests a list in an object. -/
theorem ofText_presentation_backwards :
    let zone : Literal := [.unit ⟨0, false⟩ ⟨0, false⟩ ⟨5, false⟩ ⟨5, false⟩,
      .plain 'T' (by decide), .plain 'C' (by decide)]
    let members : List (Entry Document) := [
      .of "max_upload_mb" (.number (.ofNat 100)), .of "enable_deduplication" (.bool true),
      .of "enable_jira" (.bool false), .of "enable_product_grade" (.bool true),
      .of "enable_user_profile_editable" (.bool true), .of "time_zone" (.text zone),
      .of "updated_at" .null]
    let extra : Entry Document := .of "notes" (.object .none [.of "time_zone" (.list .none [])])
    Settings.default.SpelledBy members ∧ IsExtra extra ∧
      ofText ((Document.object .none (members ++ [extra]).reverse).written .none .none) =
        .ok .default ∧
      ∃ e, ofText ((Document.object .none [extra]).written .none .none) = .error e := by
  intro zone members extra
  have hspelled : Settings.default.SpelledBy members := by
    refine ⟨members.take 6, [], members.drop 6, rfl, ?_, .inl ⟨rfl, rfl⟩,
      .inr ⟨_, rfl, Literal.spells_ofString _, rfl⟩⟩
    refine .cons ⟨Literal.spells_ofString _, rfl⟩ (.cons ⟨Literal.spells_ofString _, rfl⟩
      (.cons ⟨Literal.spells_ofString _, rfl⟩ (.cons ⟨Literal.spells_ofString _, rfl⟩
        (.cons ⟨Literal.spells_ofString _, rfl⟩ (.cons ⟨Literal.spells_ofString _, ?_⟩ .nil)))))
    exact ⟨zone, rfl, by decide⟩
  have hextra : IsExtra extra := ⟨"notes", Literal.spells_ofString _, by decide⟩
  obtain ⟨hobject, -, hunfit⟩ := ofText_presentation Settings.default .none .none .none
  refine ⟨hspelled, hextra,
    hobject members [extra] _ hspelled (by simpa using hextra) (List.reverse_perm _).symm,
    hunfit [extra] (.inl ⟨.timeZone, ?_⟩)⟩
  have hname : extra.name.Spells "notes" := Literal.spells_ofString _
  simpa using fun h => absurd (hname.unique h) (by decide)

end Settings
end ScopedSettings
