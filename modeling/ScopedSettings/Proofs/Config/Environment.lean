/-
The configuration that variables describe.

Three variables are read, each by itself. Those of the timeout and the capacity hold a
number or are refused, and `integer` reads just the numerals that fit sixty-four bits,
blanks around them left out (`integer_eq_ok_iff`). So the variables describe a
configuration just where both can be read and the capacity is not zero
(`ofVariables_eq_ok_iff`); of the other faults a configuration can have none comes about,
since a timeout of zero means none and a blank path none. A configuration that is written
as variables is read back as it was (`ofVariables_toVariables`).
-/
import ScopedSettings.Config.Environment
import ScopedSettings.Proofs.Settings.Validity

namespace ScopedSettings

theorem Duration.millis_ofMillis (ms : Nat) : (ofMillis ms).millis = ms := by
  simp [ofMillis, millis]

/-! ## Numerals -/

namespace Variables

/-- A text that is a numeral of a number: decimal digits, behind a plus sign or none. -/
def IsNumeral (s : String) (n : Nat) : Prop :=
  ∃ digits, (s.toList = digits ∨ s.toList = '+' :: digits) ∧ digits ≠ [] ∧
    (∀ c ∈ digits, c.isDigit = true) ∧ Nat.ofDigitChars 10 digits 0 = n

/-- What has been read of a number below a bound, with one more character. -/
def appendDigit (bound : Nat) (n : Option Nat) (c : Char) : Option Nat :=
  match n with
  | some n =>
    if '0' ≤ c ∧ c ≤ '9' then
      let n := n * 10 + (c.toNat - '0'.toNat)
      if n < bound then some n else none
    else none
  | none => none

/-- The digits of a numeral, without the plus sign before them. -/
def digitsOf (cs : List Char) : List Char :=
  match cs with
  | '+' :: rest => rest
  | cs => cs

theorem natural?_eq (bound : Nat) (s : String) :
    natural? bound s =
      if (digitsOf s.toList).isEmpty then none
      else (digitsOf s.toList).foldl (appendDigit bound) (some 0) := rfl

theorem isDigit_iff {c : Char} : c.isDigit = true ↔ '0' ≤ c ∧ c ≤ '9' := by
  simp [Char.isDigit, Char.le_def]

theorem appendDigit_eq_some_iff {bound m n : Nat} {c : Char} :
    appendDigit bound (some m) c = some n ↔
      c.isDigit = true ∧ 10 * m + (c.toNat - '0'.toNat) = n ∧ n < bound := by
  unfold appendDigit
  rw [isDigit_iff, Nat.mul_comm 10 m]
  dsimp only
  split
  · rename_i hdigit
    split <;> grind
  · rename_i hdigit
    simp [hdigit]

theorem foldl_appendDigit_none (bound : Nat) (cs : List Char) :
    cs.foldl (appendDigit bound) none = none := by
  induction cs with
  | nil => rfl
  | cons c cs ih => exact ih

/-- Digits are read as the number they spell, if it fits; what has been read of it fits
then too, as further digits never make it smaller. -/
theorem foldl_appendDigit_eq_some_iff {bound m n : Nat} {cs : List Char} :
    cs.foldl (appendDigit bound) (some m) = some n ↔
      (∀ c ∈ cs, c.isDigit = true) ∧ Nat.ofDigitChars 10 cs m = n ∧ (cs ≠ [] → n < bound) := by
  induction cs generalizing m with
  | nil => simp
  | cons c cs ih =>
    rw [List.foldl_cons, Nat.ofDigitChars_cons, List.forall_mem_cons]
    have hle := Text.le_ofDigitChars cs (10 * m + (c.toNat - '0'.toNat))
    cases hnext : appendDigit bound (some m) c with
    | none =>
      rw [foldl_appendDigit_none]
      have hno : ¬(c.isDigit = true ∧ 10 * m + (c.toNat - '0'.toNat) < bound) := by
        rintro ⟨hdigit, hfits⟩
        have hread := appendDigit_eq_some_iff.mpr ⟨hdigit, rfl, hfits⟩
        rw [hnext] at hread
        cases hread
      grind
    | some m' =>
      obtain ⟨hdigit, rfl, hfits⟩ := appendDigit_eq_some_iff.mp hnext
      rw [ih]
      grind [Nat.ofDigitChars_nil]

theorem digitsOf_of_isDigit {cs : List Char} (h : ∀ c ∈ cs, c.isDigit = true) :
    digitsOf cs = cs := by
  unfold digitsOf
  split
  · exact absurd (h '+' (.head _)) (by decide)
  · rfl

theorem eq_digitsOf_or (cs : List Char) : cs = digitsOf cs ∨ cs = '+' :: digitsOf cs := by
  unfold digitsOf
  split
  · exact .inr rfl
  · exact .inl rfl

theorem isNumeral_iff {s : String} {n : Nat} :
    IsNumeral s n ↔ digitsOf s.toList ≠ [] ∧ (∀ c ∈ digitsOf s.toList, c.isDigit = true) ∧
      Nat.ofDigitChars 10 (digitsOf s.toList) 0 = n := by
  refine ⟨?_, fun h => ⟨_, eq_digitsOf_or s.toList, h⟩⟩
  rintro ⟨digits, hs | hs, hnumeral⟩
  · rw [hs, digitsOf_of_isDigit hnumeral.2.1]
    exact hnumeral
  · rw [hs]
    exact hnumeral

/-- Numerals below the bound are read, and nothing else is. -/
theorem natural?_eq_some_iff {bound n : Nat} {s : String} :
    natural? bound s = some n ↔ IsNumeral s n ∧ n < bound := by
  rw [natural?_eq, isNumeral_iff]
  split
  · rename_i hempty
    simp [List.isEmpty_iff.mp hempty]
  · rename_i hempty
    rw [foldl_appendDigit_eq_some_iff]
    grind

theorem IsNumeral.unique {s : String} {m n : Nat} (hm : IsNumeral s m) (hn : IsNumeral s n) :
    m = n :=
  (isNumeral_iff.mp hm).2.2.symm.trans (isNumeral_iff.mp hn).2.2

theorem isNumeral_toString (n : Nat) : IsNumeral (toString n) n :=
  ⟨Nat.toDigits 10 n, .inl (by simp), Nat.toDigits_ne_nil,
    fun _ => Text.isDigit_of_mem_toDigits, Nat.ofDigitChars_ten_toDigits⟩

end Variables

namespace Config

open Variables

/-! ## Variables that hold a number -/

/-- A variable's text spells a number, blanks around it left out, and the number fits
sixty-four bits. -/
def Spells (raw : String) (n : Nat) : Prop :=
  IsNumeral (Text.trimmed raw) n ∧ n < UInt64.size

theorem Spells.unique {raw : String} {m n : Nat} (hm : Spells raw m) (hn : Spells raw n) :
    m = n :=
  hm.1.unique hn.1

theorem spells_toString {n : Nat} (h : n < UInt64.size) : Spells (toString n) n := by
  have hdigits : ∀ c ∈ (toString n).toList, Text.isBlank c = false := fun c hc =>
    Instant.isBlank_of_isDigit (Text.isDigit_of_mem_toDigits (n := n) (by simpa using hc))
  have htrimmed : Text.trimmed (toString n) = toString n :=
    Text.trimmed_eq_self_iff.mpr ⟨fun c hc => hdigits c (List.mem_of_mem_head? hc),
      fun c hc => hdigits c (List.mem_of_mem_getLast? hc)⟩
  refine ⟨?_, h⟩
  rw [htrimmed]
  exact isNumeral_toString n

/-- The error for a variable whose text spells no number. -/
def misread (name raw : String) : SettingsError :=
  .config (name ++ " must be an integer, got " ++ Text.quoted raw)

theorem integer_eq_ok_iff {name raw : String} {n : Nat} :
    integer name raw = .ok n ↔ Spells raw n := by
  unfold integer Spells
  rw [← natural?_eq_some_iff]
  cases natural? UInt64.size (Text.trimmed raw) <;> simp

theorem integer_eq_error_iff {name raw : String} {e : SettingsError} :
    integer name raw = .error e ↔ (¬∃ n, Spells raw n) ∧ e = misread name raw := by
  unfold integer Spells misread
  simp only [← natural?_eq_some_iff]
  cases natural? UInt64.size (Text.trimmed raw) <;> simp [eq_comm]

/-- What a variable that holds a number comes to: something of its own where it is unset,
and a meaning of the number where it is set. -/
inductive Means (text : Option String) (unset : α) (meaning : Nat → α) : α → Prop
  | unset : text = none → Means text unset meaning unset
  | number {raw : String} {n : Nat} : text = some raw → Spells raw n →
      Means text unset meaning (meaning n)

/-- A variable that holds a number, read. -/
def reading (name : String) (text : Option String) (unset : α) (meaning : Nat → α) :
    Except SettingsError α :=
  match text with
  | none => .ok unset
  | some raw => (integer name raw).map meaning

section Reading

variable {α : Type} {name raw : String} {text : Option String} {unset a : α}
  {meaning : Nat → α}

theorem Means.reading_eq (h : Means text unset meaning a) :
    reading name text unset meaning = .ok a := by
  cases h with
  | unset htext => simp [reading, htext]
  | number htext hspells => simp [reading, htext, integer_eq_ok_iff.mpr hspells, Except.map]

theorem reading_of_misread (htext : text = some raw) (hno : ¬∃ n, Spells raw n) :
    reading name text unset meaning = .error (misread name raw) := by
  simp [reading, htext, integer_eq_error_iff.mpr ⟨hno, rfl⟩, Except.map]

/-- A variable comes to something, unless it is set to a text that spells no number. -/
theorem exists_means_or (text : Option String) (unset : α) (meaning : Nat → α) :
    (∃ a, Means text unset meaning a) ∨ ∃ raw, text = some raw ∧ ¬∃ n, Spells raw n := by
  cases text with
  | none => exact .inl ⟨unset, .unset rfl⟩
  | some raw =>
    by_cases h : ∃ n, Spells raw n
    · obtain ⟨n, hspells⟩ := h
      exact .inl ⟨meaning n, .number rfl hspells⟩
    · exact .inr ⟨raw, rfl, h⟩

theorem Means.exists_spells (h : Means text unset meaning a) (htext : text = some raw) :
    ∃ n, Spells raw n ∧ meaning n = a := by
  cases h with
  | unset hunset =>
    rw [hunset] at htext
    cases htext
  | number hset hspells =>
    obtain rfl := Option.some.inj (hset.symm.trans htext)
    exact ⟨_, hspells, rfl⟩

end Reading

/-- The bound of a fetch that a number of milliseconds means. -/
def boundOf (ms : Nat) : Option Duration :=
  if ms = 0 then none else some (.ofMillis ms)

/-- The bound of a fetch is this one, by the variables. -/
abbrev TimeoutIs (vs : Variables) (t : Option Duration) : Prop :=
  Means (vs.get? timeoutVariable) default.fetchTimeout boundOf t

/-- So many events are kept, by the variables. -/
abbrev CapacityIs (vs : Variables) (n : Nat) : Prop :=
  Means (vs.get? capacityVariable) default.eventCapacity id n

section Variables

variable {vs : Variables} {c : Config} {raw : String} {t : Option Duration} {n : Nat}
  {e : SettingsError}

theorem timeoutOf_eq (text : Option String) :
    timeoutOf text = reading timeoutVariable text default.fetchTimeout boundOf := by
  cases text <;> rfl

theorem capacityOf_eq (text : Option String) :
    capacityOf text = reading capacityVariable text default.eventCapacity id := by
  cases text with
  | none => rfl
  | some raw => cases h : integer capacityVariable raw <;> simp [capacityOf, reading, h, Except.map]

/-! ## What variables describe -/

theorem fault?_eq_none_iff :
    c.fault? = none ↔
      c.eventCapacity ≠ 0 ∧ c.fetchTimeout ≠ some ⟨0⟩ ∧ c.medium ≠ .file "" := by
  unfold fault?
  by_cases hcapacity : c.eventCapacity = 0
  · simp [hcapacity]
  · by_cases htimeout : c.fetchTimeout = some ⟨0⟩ <;> simp [hcapacity, htimeout]

theorem validate_eq_ok_iff : c.validate = .ok () ↔ c.fault? = none := by
  unfold validate
  cases c.fault? <;> simp

/-- A place other than the empty path, put into a valid configuration, leaves it valid. -/
theorem validate_at {m : Medium} (h : c.validate = .ok ()) (hm : m ≠ .file "") :
    ({ c with medium := m } : Config).validate = .ok () := by
  rw [validate_eq_ok_iff, fault?_eq_none_iff] at h ⊢
  exact ⟨h.1, h.2.1, hm⟩

/-- The empty path, put into a valid configuration, is what is wrong with it. -/
theorem validate_at_empty (h : c.validate = .ok ()) :
    ({ c with medium := .file "" } : Config).validate =
      .error (.config Fault.emptyPath.message) := by
  obtain ⟨hcapacity, htimeout, -⟩ := fault?_eq_none_iff.mp (validate_eq_ok_iff.mp h)
  unfold validate fault?
  rw [if_neg hcapacity, if_neg htimeout, if_pos rfl]

theorem mediumOf_eq_file_iff {text : Option String} {path : String} :
    mediumOf text = .file path ↔ text = some path ∧ Text.isBlankText path = false := by
  cases text with
  | none => simp [mediumOf, default]
  | some path' =>
    cases hblank : Text.isBlankText path' with
    | true => simp [mediumOf, default, hblank]; grind
    | false => simp [mediumOf, hblank]; grind

theorem medium_eq_of_file {m m' : Medium} (h : ∀ path, m = .file path ↔ m' = .file path) :
    m = m' := by
  cases m with
  | memory =>
    cases m' with
    | memory => rfl
    | file path => exact (h path).mpr rfl
  | file path => exact ((h path).mp rfl).symm

/-- A timeout of zero is none, so that none is zero. -/
theorem TimeoutIs.ne_zero (h : TimeoutIs vs t) : t ≠ some ⟨0⟩ := by
  cases h with
  | unset => decide
  | number =>
    unfold boundOf Duration.ofMillis
    split
    · nofun
    · simp only [ne_eq, Option.some.injEq, Duration.mk.injEq]
      omega

/-- Where both numbers can be read, nothing but a capacity of zero is refused. -/
theorem ofVariables_of_read (ht : TimeoutIs vs t) (hn : CapacityIs vs n) :
    ofVariables vs =
      if n = 0 then .error (.config Fault.noCapacity.message)
      else .ok ⟨mediumOf (vs.get? fileVariable), t, n⟩ := by
  have hconfig : ofVariables vs =
      (Config.mk (mediumOf (vs.get? fileVariable)) t n).validate >>= fun _ =>
        pure ⟨mediumOf (vs.get? fileVariable), t, n⟩ := by
    unfold ofVariables
    rw [timeoutOf_eq, capacityOf_eq, ht.reading_eq, hn.reading_eq]
    rfl
  rw [hconfig]
  split
  · rename_i hzero
    subst hzero
    rfl
  · rename_i hzero
    have hfile : mediumOf (vs.get? fileVariable) ≠ .file "" := fun h =>
      absurd (mediumOf_eq_file_iff.mp h).2 (by decide)
    rw [validate_eq_ok_iff.mpr (fault?_eq_none_iff.mpr ⟨hzero, ht.ne_zero, hfile⟩)]
    rfl

theorem ofVariables_of_misread_timeout (htext : vs.get? timeoutVariable = some raw)
    (hno : ¬∃ n, Spells raw n) : ofVariables vs = .error (misread timeoutVariable raw) := by
  unfold ofVariables
  rw [timeoutOf_eq, reading_of_misread htext hno]
  rfl

theorem ofVariables_of_misread_capacity (ht : TimeoutIs vs t)
    (htext : vs.get? capacityVariable = some raw) (hno : ¬∃ n, Spells raw n) :
    ofVariables vs = .error (misread capacityVariable raw) := by
  unfold ofVariables
  rw [timeoutOf_eq, capacityOf_eq, ht.reading_eq, reading_of_misread htext hno]
  rfl

/-- What variables say a configuration is. -/
structure Described (vs : Variables) (c : Config) : Prop where
  medium : ∀ path, c.medium = .file path ↔
    vs.get? fileVariable = some path ∧ Text.isBlankText path = false
  timeout : TimeoutIs vs c.fetchTimeout
  capacity : CapacityIs vs c.eventCapacity
  capacity_ne_zero : c.eventCapacity ≠ 0

/-- The first offence of variables that describe no configuration, and the error it is. -/
inductive FirstOffence (vs : Variables) : SettingsError → Prop
  | timeout {raw : String} : vs.get? timeoutVariable = some raw → (¬∃ n, Spells raw n) →
      FirstOffence vs (misread timeoutVariable raw)
  | capacity {raw : String} {t : Option Duration} : TimeoutIs vs t →
      vs.get? capacityVariable = some raw → (¬∃ n, Spells raw n) →
      FirstOffence vs (misread capacityVariable raw)
  | noCapacity {raw : String} {t : Option Duration} : TimeoutIs vs t →
      vs.get? capacityVariable = some raw → Spells raw 0 →
      FirstOffence vs (.config Fault.noCapacity.message)

theorem capacityIs_zero_iff :
    CapacityIs vs 0 ↔ ∃ raw, vs.get? capacityVariable = some raw ∧ Spells raw 0 := by
  constructor
  · intro h
    generalize hzero : 0 = n at h
    cases h with
    | unset => cases hzero
    | number htext hspells =>
      rename_i raw n
      obtain rfl : n = 0 := hzero.symm
      exact ⟨raw, htext, hspells⟩
  · rintro ⟨raw, htext, hspells⟩
    exact .number htext hspells

/-- Variables describe a configuration or have a first offence. -/
theorem ofVariables_cases (vs : Variables) :
    (∃ c, ofVariables vs = .ok c ∧ Described vs c) ∨
      ∃ e, ofVariables vs = .error e ∧ FirstOffence vs e := by
  rcases exists_means_or (vs.get? timeoutVariable) default.fetchTimeout boundOf with
    ⟨t, ht⟩ | ⟨raw, htext, hno⟩
  · rcases exists_means_or (vs.get? capacityVariable) default.eventCapacity id with
      ⟨n, hn⟩ | ⟨raw, htext, hno⟩
    · have hread := ofVariables_of_read ht hn
      by_cases hzero : n = 0
      · subst hzero
        obtain ⟨raw, htext, hspells⟩ := capacityIs_zero_iff.mp hn
        exact .inr ⟨_, hread, .noCapacity ht htext hspells⟩
      · rw [if_neg hzero] at hread
        exact .inl ⟨_, hread, fun _ => mediumOf_eq_file_iff, ht, hn, hzero⟩
    · exact .inr ⟨_, ofVariables_of_misread_capacity ht htext hno, .capacity ht htext hno⟩
  · exact .inr ⟨_, ofVariables_of_misread_timeout htext hno, .timeout htext hno⟩

/-- The variables give just the configuration they describe. -/
theorem ofVariables_eq_ok_iff : ofVariables vs = .ok c ↔ Described vs c := by
  constructor
  · intro h
    rcases ofVariables_cases vs with ⟨c', hc', hdescribed⟩ | ⟨e, he, -⟩
    · rw [h] at hc'
      cases hc'
      exact hdescribed
    · rw [h] at he
      cases he
  · intro h
    have hmedium : mediumOf (vs.get? fileVariable) = c.medium :=
      medium_eq_of_file fun path => mediumOf_eq_file_iff.trans (h.medium path).symm
    rw [ofVariables_of_read h.timeout h.capacity, if_neg h.capacity_ne_zero, hmedium]

theorem Described.validate (h : Described vs c) : c.validate = .ok () := by
  refine validate_eq_ok_iff.mpr
    (fault?_eq_none_iff.mpr ⟨h.capacity_ne_zero, h.timeout.ne_zero, fun hempty => ?_⟩)
  exact absurd ((h.medium "").mp hempty).2 (by decide)

/-- The variables give an error just where it is their first offence. -/
theorem ofVariables_eq_error_iff : ofVariables vs = .error e ↔ FirstOffence vs e := by
  constructor
  · intro h
    rcases ofVariables_cases vs with ⟨c, hc, -⟩ | ⟨e', he', hoffence⟩
    · rw [h] at hc
      cases hc
    · rw [h] at he'
      cases he'
      exact hoffence
  · intro h
    cases h with
    | timeout htext hno => exact ofVariables_of_misread_timeout htext hno
    | capacity ht htext hno => exact ofVariables_of_misread_capacity ht htext hno
    | noCapacity ht htext hzero =>
      rw [ofVariables_of_read ht (capacityIs_zero_iff.mpr ⟨_, htext, hzero⟩)]
      rfl

/-- The variables describe a configuration just where both numbers can be read, unless the
capacity is zero. -/
theorem exists_ofVariables_iff :
    (∃ c, ofVariables vs = .ok c) ↔
      (∀ raw, vs.get? timeoutVariable = some raw → ∃ n, Spells raw n) ∧
        ∀ raw, vs.get? capacityVariable = some raw → ∃ n, Spells raw n ∧ n ≠ 0 := by
  constructor
  · rintro ⟨c, hc⟩
    obtain ⟨-, htimeout, hcapacity, hne⟩ := ofVariables_eq_ok_iff.mp hc
    refine ⟨fun raw htext => ?_, fun raw htext => ?_⟩
    · obtain ⟨n, hspells, -⟩ := htimeout.exists_spells htext
      exact ⟨n, hspells⟩
    · obtain ⟨n, hspells, hn⟩ := hcapacity.exists_spells htext
      exact ⟨n, hspells, fun hzero => hne (hn.symm.trans hzero)⟩
  · rintro ⟨htimeout, hcapacity⟩
    rcases ofVariables_cases vs with ⟨c, hc, -⟩ | ⟨e, -, hoffence⟩
    · exact ⟨c, hc⟩
    · cases hoffence with
      | timeout htext hno => exact absurd (htimeout _ htext) hno
      | capacity ht htext hno =>
        obtain ⟨n, hspells, -⟩ := hcapacity _ htext
        exact absurd ⟨n, hspells⟩ hno
      | noCapacity ht htext hzero =>
        obtain ⟨n, hspells, hne⟩ := hcapacity _ htext
        exact absurd (hspells.unique hzero) hne

end Variables

/-! ## Configurations written as variables -/

/-- A configuration as variables: the timeout in milliseconds, zero for none. -/
def toVariables (c : Config) : Variables :=
  [(timeoutVariable, toString ((c.fetchTimeout.map Duration.millis).getD 0)),
    (capacityVariable, toString c.eventCapacity)] ++
    match c.medium with
    | .memory => []
    | .file path => [(fileVariable, path)]

theorem get?_toVariables (c : Config) :
    c.toVariables.get? timeoutVariable =
        some (toString ((c.fetchTimeout.map Duration.millis).getD 0)) ∧
      c.toVariables.get? capacityVariable = some (toString c.eventCapacity) ∧
      c.toVariables.get? fileVariable =
        match c.medium with
        | .memory => none
        | .file path => some path := by
  unfold toVariables
  cases c.medium <;> exact ⟨rfl, rfl, rfl⟩

/-- A timeout of whole milliseconds is the bound that its milliseconds mean. -/
theorem exists_boundOf {t : Option Duration}
    (h : ∀ d, t = some d → ∃ ms < UInt64.size, d = .ofMillis ms) (hne : t ≠ some ⟨0⟩) :
    ∃ ms < UInt64.size, ms = (t.map Duration.millis).getD 0 ∧ boundOf ms = t := by
  cases t with
  | none => exact ⟨0, by decide, rfl, rfl⟩
  | some d =>
    obtain ⟨ms, hfits, rfl⟩ := h d rfl
    have hms : ms ≠ 0 := by
      rintro rfl
      exact hne rfl
    refine ⟨ms, hfits, ?_, if_neg hms⟩
    rw [Option.map_some, Option.getD_some, Duration.millis_ofMillis]

/-- A valid configuration is read back from its variables, if its timeout is a whole number
of milliseconds, both numbers fit sixty-four bits and its path is not blank. -/
theorem ofVariables_toVariables {c : Config} (hvalid : c.validate = .ok ())
    (hcapacity : c.eventCapacity < UInt64.size)
    (htimeout : ∀ d, c.fetchTimeout = some d → ∃ ms < UInt64.size, d = .ofMillis ms)
    (hpath : ∀ path, c.medium = .file path → Text.isBlankText path = false) :
    ofVariables c.toVariables = .ok c := by
  obtain ⟨hgetTimeout, hgetCapacity, hgetFile⟩ := c.get?_toVariables
  obtain ⟨hne, hnezero, -⟩ := fault?_eq_none_iff.mp (validate_eq_ok_iff.mp hvalid)
  refine ofVariables_eq_ok_iff.mpr ⟨fun path => ?_, ?_, ?_, hne⟩
  · rw [hgetFile]
    cases hmedium : c.medium with
    | memory => simp
    | file path' =>
      have hnamed := hpath path' hmedium
      simp only [Medium.file.injEq, Option.some.injEq]
      refine ⟨fun heq => ⟨heq, heq ▸ hnamed⟩, And.left⟩
  · obtain ⟨ms, hfits, hmillis, hbound⟩ := exists_boundOf htimeout hnezero
    rw [← hmillis] at hgetTimeout
    rw [← hbound]
    exact .number hgetTimeout (spells_toString hfits)
  · exact .number hgetCapacity (spells_toString hcapacity)

end Config
end ScopedSettings
