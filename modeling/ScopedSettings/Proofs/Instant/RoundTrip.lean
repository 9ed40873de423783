/-
An instant is read back from its text as it was, in any of the calendar's
years and inside leap seconds too.

The text is read from the left, each part up to the mark behind it. Parts of a
fixed width end there whatever follows (`number_padded`); years of more than
four digits, and the places behind a point, end at a mark that is no digit. A
timestamp that is no instant is written as one (`Timestamp.spelled`), and that is
what is read back.
-/
import ScopedSettings.Instant.Parser
import ScopedSettings.Instant.Printer
import ScopedSettings.Proofs.Text.Decimal

namespace ScopedSettings

/-! ## Padded numbers -/

theorem isDigit_of_mem_padded {width n : Nat} {c : Char} (h : c ∈ padded width n) :
    c.isDigit = true := by
  unfold padded at h
  rcases List.mem_append.mp h with h | h
  · obtain rfl := List.eq_of_mem_replicate h
    rfl
  · exact Text.isDigit_of_mem_toDigits (n := n) (by simpa using h)

theorem length_padded {width n : Nat} (hpos : 0 < width) (h : n < 10 ^ width) :
    (padded width n).length = width := by
  have hle := (Nat.length_toDigits_le_iff (b := 10) (by omega) hpos).mpr h
  simp [padded]
  omega

theorem ofDigitChars_padded (width n : Nat) : Nat.ofDigitChars 10 (padded width n) 0 = n := by
  simp [padded, Nat.ofDigitChars_append]

theorem padded_eq_cons (width n : Nat) :
    ∃ c cs, padded width n = c :: cs ∧ c.isDigit = true := by
  cases h : padded width n with
  | nil => simp [padded] at h
  | cons c cs =>
    have hmem : c ∈ padded width n := by simp [h]
    exact ⟨c, cs, rfl, isDigit_of_mem_padded hmem⟩

namespace Instant

theorem digit?_of_isDigit {c : Char} (h : c.isDigit = true) :
    digit? c = some (c.toNat - '0'.toNat) := by
  have := Text.toNat_of_isDigit h
  exact if_pos this

theorem isBlank_of_isDigit {c : Char} (h : c.isDigit = true) : Text.isBlank c = false := by
  have := Text.toNat_of_isDigit h
  simp [Text.isBlank]
  omega

theorem trimStart_padded (width n : Nat) (rest : List Char) :
    Text.trimStart (padded width n ++ rest) = padded width n ++ rest := by
  obtain ⟨c, cs, hcs, hc⟩ := padded_eq_cons width n
  rw [hcs]
  exact Text.trimStart_of_not_blank (isBlank_of_isDigit hc) _

/-! ## Reading numbers -/

/-- Digits are read up to their end, if it is where the width is used up or another
character stands, and there are no more of them than the width allows. -/
theorem moreDigits_append {cs rest : List Char} (hcs : ∀ c ∈ cs, c.isDigit = true)
    {width : Option Nat} (hwidth : ∀ w, width = some w → cs.length ≤ w)
    (hend : width = some cs.length ∨ ∀ c ∈ rest.head?, digit? c = none) {n : Nat}
    (hn : Nat.ofDigitChars 10 cs n < numberBound) :
    moreDigits width n (cs ++ rest) = .ok (Nat.ofDigitChars 10 cs n, rest) := by
  induction cs generalizing width n with
  | nil =>
    rw [Nat.ofDigitChars_nil, List.nil_append]
    rcases hend with hend | hend
    · rw [hend]
      cases rest <;> rfl
    · unfold moreDigits
      split
      · rfl
      · rfl
      · rename_i c rest _
        rw [hend c rfl]
  | cons c cs ih =>
    rw [Nat.ofDigitChars_cons] at hn ⊢
    have hle := Text.le_ofDigitChars cs (10 * n + (c.toNat - '0'.toNat))
    have hdigit := digit?_of_isDigit (hcs c List.mem_cons_self)
    have hwidth' : ∀ w, width.map (· - 1) = some w → cs.length ≤ w := by
      intro w hw
      obtain ⟨v, hv, rfl⟩ := Option.map_eq_some_iff.mp hw
      have := hwidth v hv
      simp only [List.length_cons] at this
      omega
    have hend' : width.map (· - 1) = some cs.length ∨ ∀ c ∈ rest.head?, digit? c = none := by
      rcases hend with hend | hend
      · left
        simp [hend]
      · exact .inr hend
    have hrest := ih (fun d hd => hcs d (List.mem_cons_of_mem _ hd)) hwidth' hend' hn
    rw [List.cons_append, moreDigits]
    · simp only [hdigit]
      rw [Nat.mul_comm n 10, if_pos (by omega)]
      exact hrest
    · intro h
      have := hwidth 0 h
      simp at this

/-- A padded number is read as the number. -/
theorem number_padded {padding n : Nat} {width : Option Nat} {rest : List Char}
    (hwidth : ∀ w, width = some w → (padded padding n).length ≤ w)
    (hend : width = some (padded padding n).length ∨ ∀ c ∈ rest.head?, digit? c = none)
    (hn : n < numberBound) : number width (padded padding n ++ rest) = .ok (n, rest) := by
  have hvalue := ofDigitChars_padded padding n
  have h := moreDigits_append (fun c => isDigit_of_mem_padded) hwidth hend (n := 0)
    (by rw [hvalue]; exact hn)
  rw [hvalue] at h
  obtain ⟨c, cs, hcs, hc⟩ := padded_eq_cons padding n
  rw [hcs] at h ⊢
  unfold number
  rw [List.cons_append]
  dsimp only
  rw [if_pos (by rw [digit?_of_isDigit hc]; rfl)]
  exact h

/-- A number that is written in as many digits as are read, whatever follows it. -/
theorem number_padded_width {width n : Nat} (hpos : 0 < width) (h : n < 10 ^ width)
    (hn : n < numberBound) (rest : List Char) :
    number (some width) (padded width n ++ rest) = .ok (n, rest) := by
  have hlength := length_padded hpos h
  refine number_padded ?_ ?_ hn
  · intro w hw
    cases hw
    exact Nat.le_of_eq hlength
  · left
    rw [hlength]

theorem ok_bind {ε : Type} {α β : Type} (a : α) (f : α → Except ε β) :
    ((.ok a : Except ε α) >>= f) = f a := rfl

theorem numberIn_padded {least greatest n : Nat} (hleast : least ≤ n) (hgreatest : n ≤ greatest)
    (hbound : greatest < 100) (rest : List Char) :
    numberIn least greatest (padded 2 n ++ rest) = .ok (n, rest) := by
  have hbound' : n < numberBound := Nat.lt_trans (Nat.lt_of_le_of_lt hgreatest hbound) (by decide)
  have hnumber : number (some 2) (padded 2 n ++ rest) = .ok (n, rest) :=
    number_padded_width (by omega) (by omega) hbound' rest
  unfold numberIn
  rw [trimStart_padded, hnumber, ok_bind]
  simp [hleast, hgreatest]

theorem after_mark {mark : Char} (h : Text.isBlank mark = false) (rest : List Char) :
    after mark (mark :: rest) = .ok rest := by
  simp [after, Text.trimStart_of_not_blank h]

theorem isBlank_minus : Text.isBlank '-' = false := by decide

theorem isBlank_plus : Text.isBlank '+' = false := by decide

theorem isBlank_colon : Text.isBlank ':' = false := by decide

theorem inYears {y : Int} (hfirst : -(yearBound : Int) ≤ y) (hlast : y < yearBound) :
    (-(yearBound : Int) ≤ y && y < yearBound) = true := by
  rw [Bool.and_eq_true, decide_eq_true_eq, decide_eq_true_eq]
  exact ⟨hfirst, hlast⟩

-- the check that follows is kept out of sight: it must not be computed with
theorem map_bind {α β γ : Type} {e : Except Fault α} {a : α} (h : e = .ok a) (f : α → β)
    (check : β → Except Fault γ) : (e.map f >>= check) = check (f a) := by
  rw [h]
  rfl

theorem year_minus {cs rest : List Char} {n : Nat} (h : number none cs = .ok (n, rest))
    (hn : n < yearBound) : year ('-' :: cs) = .ok (-(n : Int), rest) := by
  have hfirst : -(yearBound : Int) ≤ -(n : Int) := by omega
  have hlast : -(n : Int) < yearBound := by omega
  unfold year
  rw [Text.trimStart_of_not_blank isBlank_minus]
  exact (map_bind h _ _).trans (if_pos (inYears hfirst hlast))

theorem year_plus {cs rest : List Char} {n : Nat} (h : number none cs = .ok (n, rest))
    (hn : n < yearBound) : year ('+' :: cs) = .ok ((n : Int), rest) := by
  have hfirst : -(yearBound : Int) ≤ (n : Int) := Int.neg_natCast_le_natCast yearBound n
  have hlast : (n : Int) < yearBound := Int.ofNat_lt.mpr hn
  unfold year
  rw [Text.trimStart_of_not_blank isBlank_plus]
  exact (map_bind h _ _).trans (if_pos (inYears hfirst hlast))

theorem year_digits {c : Char} (hc : c.isDigit = true) {cs rest : List Char} {n : Nat}
    (h : number (some 4) (c :: cs) = .ok (n, rest)) (hn : n < yearBound) :
    year (c :: cs) = .ok ((n : Int), rest) := by
  have hfirst : -(yearBound : Int) ≤ (n : Int) := Int.neg_natCast_le_natCast yearBound n
  have hlast : (n : Int) < yearBound := Int.ofNat_lt.mpr hn
  unfold year
  rw [Text.trimStart_of_not_blank (isBlank_of_isDigit hc)]
  split
  · rename_i heq
    obtain ⟨rfl, -⟩ := List.cons.inj heq
    exact absurd hc (by decide)
  · rename_i heq
    obtain ⟨rfl, -⟩ := List.cons.inj heq
    exact absurd hc (by decide)
  · exact (map_bind h _ _).trans (if_pos (inYears hfirst hlast))

/-- A year of the calendar is read from what it is written as before a hyphen. -/
theorem year_yearChars {y : Int} (hfirst : firstYear ≤ y) (hlast : y ≤ lastYear)
    (rest : List Char) : year (yearChars y ++ '-' :: rest) = .ok (y, '-' :: rest) := by
  have hf : firstYear = -262143 := rfl
  have hl : lastYear = 262142 := rfl
  have hb : yearBound = 2 ^ 31 := rfl
  have hn : numberBound = 2 ^ 63 := rfl
  unfold yearChars
  by_cases h : 0 ≤ y ∧ y ≤ 9999
  · obtain ⟨hpos, hsmall⟩ := h
    have hnumber : number (some 4) (padded 4 y.toNat ++ '-' :: rest) =
        .ok (y.toNat, '-' :: rest) :=
      number_padded_width (by omega) (by omega) (by omega) ('-' :: rest)
    obtain ⟨c, cs, hcs, hc⟩ := padded_eq_cons 4 y.toNat
    rw [hcs, List.cons_append] at hnumber
    have hy : ((y.toNat : Nat) : Int) = y := by omega
    rw [if_pos ⟨hpos, hsmall⟩, hcs, List.cons_append, year_digits hc hnumber (by omega), hy]
  · have hmark : ∀ c ∈ ('-' :: rest).head?, digit? c = none := by
      intro c hc
      obtain rfl : '-' = c := Option.some.inj hc
      rfl
    have hnumber : number none (padded 4 y.natAbs ++ '-' :: rest) =
        .ok (y.natAbs, '-' :: rest) := by
      refine number_padded ?_ (.inr hmark) (by omega)
      intro w hw
      cases hw
    rw [if_neg h]
    by_cases hneg : y < 0
    · have hy : -((y.natAbs : Nat) : Int) = y := by omega
      rw [if_pos hneg, List.cons_append, year_minus hnumber (by omega), hy]
    · have hy : ((y.natAbs : Nat) : Int) = y := by omega
      rw [if_neg hneg, List.cons_append, year_plus hnumber (by omega), hy]

/-- Places behind a point are read up to a mark that is no digit. -/
theorem fraction_places {places n : Nat} (hpos : 0 < places) (hplaces : places ≤ 9)
    (h : n < 10 ^ places) (rest : List Char) :
    fraction ('.' :: (padded places n ++ 'Z' :: rest)) =
      .ok (n * 10 ^ (9 - places), 'Z' :: rest) := by
  have hlength := length_padded hpos h
  have hbound : n < numberBound :=
    Nat.lt_of_lt_of_le h (Nat.le_trans (Nat.pow_le_pow_right (by omega) hplaces) (by decide))
  have hmark : ∀ c ∈ ('Z' :: rest).head?, digit? c = none := by
    intro c hc
    obtain rfl : 'Z' = c := Option.some.inj hc
    rfl
  have hnumber : number (some 9) (padded places n ++ 'Z' :: rest) = .ok (n, 'Z' :: rest) := by
    refine number_padded ?_ (.inr hmark) hbound
    intro w hw
    cases hw
    omega
  have hused : (padded places n ++ 'Z' :: rest).length - ('Z' :: rest).length = places := by
    simp [hlength]
  simp only [fraction, hnumber, hused]
  rfl

theorem fraction_fractionChars {nano : Nat} (h : nano < nanosPerSecond) (rest : List Char) :
    fraction (fractionChars nano ++ 'Z' :: rest) = .ok (nano, 'Z' :: rest) := by
  have hs : nanosPerSecond = 10 ^ 9 := rfl
  unfold fractionChars
  split
  · rename_i hzero
    obtain rfl : nano = 0 := by simpa using hzero
    rfl
  split
  · rename_i hmod
    have hmod : nano % 1000000 = 0 := by simpa using hmod
    have hn : nano / 1000000 * 10 ^ (9 - 3) = nano := by omega
    rw [List.cons_append, fraction_places (by omega) (by omega) (by omega), hn]
  split
  · rename_i hmod
    have hmod : nano % 1000 = 0 := by simpa using hmod
    have hn : nano / 1000 * 10 ^ (9 - 6) = nano := by omega
    rw [List.cons_append, fraction_places (by omega) (by omega) (by omega), hn]
  · have hn : nano * 10 ^ (9 - 9) = nano := by omega
    rw [List.cons_append, fraction_places (by omega) (by omega) (by omega), hn]

end Instant

/-! ## The instant a timestamp is written as -/

theorem daysInMonth_le (y : Int) (m : Nat) : daysInMonth y m ≤ 31 := by
  unfold daysInMonth
  split
  · split <;> omega
  all_goals omega

namespace Timestamp

/-- The parts a timestamp is written as. -/
def writtenParts (t : Timestamp) : Instant.Parts where
  year := t.date.year
  month := t.date.month
  day := t.date.day
  hour := t.second / 3600
  minute := t.second / 60 % 60
  second := t.second % 60 + if t.isLeap then 1 else 0
  nano := t.nano % nanosPerSecond
  offset := 0

theorem isTime_carried {t : Timestamp} (h : ¬t.IsRegular) :
    IsTime (t.second + 1) (t.nano - nanosPerSecond) := by
  obtain ⟨hsecond, hnano⟩ := t.isTime
  have hs : secondsPerDay = 86400 := rfl
  have hlast : t.second % 60 ≠ 59 := fun hlast => h fun _ => hlast
  exact ⟨by omega, by omega⟩

theorem isRegularTime_carried (t : Timestamp) (second : Nat) :
    IsRegularTime second (t.nano - nanosPerSecond) := by
  obtain ⟨-, hnano⟩ := t.isTime
  intro hle
  omega

/-- The instant that the texts of a timestamp spell: a leap second that ends no minute is
carried into the second that follows. -/
def spelled (t : Timestamp) : Instant :=
  if h : t.IsRegular then ⟨t, h⟩
  else ⟨⟨t.date, t.second + 1, t.nano - nanosPerSecond, isTime_carried h⟩,
    t.isRegularTime_carried _⟩

@[simp] theorem spelled_instant (t : Instant) : t.toTimestamp.spelled = t :=
  dif_pos t.isRegular

/-- The instant that is spelled is the timestamp itself, exactly if it is an instant. -/
theorem spelled_eq_iff {t : Timestamp} : t.spelled.toTimestamp = t ↔ t.IsRegular := by
  constructor
  · intro h
    rw [← h]
    exact t.spelled.isRegular
  · intro h
    unfold spelled
    rw [dif_pos h]

theorem isLeap_of_not_regular {t : Timestamp} (h : ¬t.IsRegular) :
    t.isLeap = true ∧ t.spelled.isLeap = false ∧ t.second % 60 ≠ 59 ∧
      t.spelled.second = t.second + 1 ∧ t.spelled.nano = t.nano - nanosPerSecond ∧
      t.spelled.date = t.date := by
  obtain ⟨hsecond, hnano⟩ := t.isTime
  have hleap : nanosPerSecond ≤ t.nano :=
    Nat.not_lt.mp fun hlt => h fun hle => absurd hle (Nat.not_le.mpr hlt)
  have hspelled : t.spelled = ⟨⟨t.date, t.second + 1, t.nano - nanosPerSecond,
      isTime_carried h⟩, t.isRegularTime_carried _⟩ := dif_neg h
  rw [hspelled]
  refine ⟨by simpa [isLeap] using hleap, ?_, fun hlast => h fun _ => hlast, rfl, rfl, rfl⟩
  simp only [isLeap, decide_eq_false_iff_not]
  omega

/-- A timestamp is written as the instant that it spells. -/
theorem writtenParts_spelled (t : Timestamp) : t.spelled.writtenParts = t.writtenParts := by
  by_cases h : t.IsRegular
  · rw [spelled_eq_iff.mpr h]
  obtain ⟨hleap, hleap', hlast, hsecond, hnano, hdate⟩ := isLeap_of_not_regular h
  have hwhole : nanosPerSecond ≤ t.nano := by simpa [isLeap] using hleap
  have hhour : (t.second + 1) / 3600 = t.second / 3600 := by omega
  have hminute : (t.second + 1) / 60 % 60 = t.second / 60 % 60 := by omega
  have hwithin : (t.second + 1) % 60 = t.second % 60 + 1 := by omega
  have hpart : (t.nano - nanosPerSecond) % nanosPerSecond = t.nano % nanosPerSecond :=
    (Nat.mod_eq_sub_mod hwhole).symm
  unfold writtenParts
  rw [hleap, hleap', hsecond, hnano, hdate, hhour, hminute, hwithin, hpart]
  rfl

/-- The texts of a timestamp are those of the instant that it spells. -/
theorem timeChars_spelled (t : Timestamp) : t.spelled.timeChars = t.timeChars := by
  have h := t.writtenParts_spelled
  simp only [writtenParts, Instant.Parts.mk.injEq] at h
  obtain ⟨-, -, -, hhour, hminute, hsecond, -, -⟩ := h
  unfold timeChars
  rw [hhour, hminute, hsecond]

/-- A third of a second into a leap second, four seconds past a minute. -/
def withinMinute : Timestamp :=
  ⟨⟨2015, 6, 30, by decide⟩, 86164, 1333333333, by decide⟩

theorem date_spelled (t : Timestamp) : t.spelled.date = t.date := by
  by_cases h : t.IsRegular
  · rw [spelled_eq_iff.mpr h]
  · obtain ⟨-, -, -, -, -, hdate⟩ := isLeap_of_not_regular h
    exact hdate

end Timestamp

/-! ## Whole instants -/

namespace Instant

/-- A date and a time are read from what they are written as, with any mark between them
that may stand there, and a tail of places and an offset of nothing. -/
theorem parts_dateAndTime (t : Timestamp) {mark : Char} {tail rest : List Char} {nano : Nat}
    (hmark : ∀ cs, afterDate (mark :: cs) = .ok cs) (htail : fraction tail = .ok (nano, rest))
    (hrest : Instant.offset (Text.trimStart rest) = .ok (0, [])) :
    parts (t.dateChars ++ mark :: (t.timeChars ++ tail)) =
      .ok ({ t.writtenParts with nano }, []) := by
  obtain ⟨hfirst, hlast, hmonth, hmonth', hday, hday'⟩ := t.date.isDate
  have hdays := daysInMonth_le t.date.year t.date.month
  have hsecond : t.second < 86400 := t.isTime.1
  have hleap : (if t.isLeap then 1 else 0) ≤ 1 := by split <;> omega
  have hchars : t.dateChars ++ mark :: (t.timeChars ++ tail) = yearChars t.date.year ++
      '-' :: (padded 2 t.date.month ++
      '-' :: (padded 2 t.date.day ++ mark :: (padded 2 (t.second / 3600) ++
      ':' :: (padded 2 (t.second / 60 % 60) ++
      ':' :: (padded 2 (t.second % 60 + if t.isLeap then 1 else 0) ++ tail))))) := by
    simp [Timestamp.dateChars, Timestamp.timeChars]
  rw [hchars]
  unfold parts
  rw [year_yearChars hfirst hlast, ok_bind]
  dsimp only
  rw [after_mark isBlank_minus, ok_bind, numberIn_padded hmonth hmonth' (by omega), ok_bind]
  dsimp only
  rw [after_mark isBlank_minus, ok_bind, numberIn_padded hday (by omega) (by omega), ok_bind]
  dsimp only
  rw [hmark, ok_bind, numberIn_padded (by omega) (by omega) (by omega), ok_bind]
  dsimp only
  rw [after_mark isBlank_colon, ok_bind, numberIn_padded (by omega) (by omega) (by omega), ok_bind]
  dsimp only
  rw [after_mark isBlank_colon, ok_bind, numberIn_padded (by omega) (by omega) (by omega), ok_bind]
  dsimp only
  rw [htail, ok_bind]
  dsimp only
  rw [hrest, ok_bind]
  rfl

theorem parts_chars (t : Timestamp) : parts t.chars = .ok (t.writtenParts, []) := by
  have hnano : t.nano % nanosPerSecond < nanosPerSecond := Nat.mod_lt _ (by decide)
  have hchars : t.chars =
      t.dateChars ++
        'T' :: (t.timeChars ++ (fractionChars (t.nano % nanosPerSecond) ++ ['Z'])) := by
    simp [Timestamp.chars]
  rw [hchars, parts_dateAndTime t (fun _ => rfl) (fraction_fractionChars hnano []) rfl]
  rfl

theorem ofLocal?_zero (date : Date) {second nano : Nat} (h : IsTime second nano)
    (hregular : IsRegularTime second nano) :
    ofLocal? date second nano 0 = some ⟨⟨date, second, nano, h⟩, hregular⟩ := by
  have hlt : second < secondsPerDay := h.1
  unfold ofLocal?
  dsimp only
  rw [if_neg (by omega), if_pos (by omega)]
  have hs : ((second : Int) - 0).toNat = second := by omega
  rw [hs]
  exact dif_pos ⟨h, hregular⟩

theorem Parts.instant_eq {p : Parts} {date : Date} {second nano : Nat}
    (hdate : Date.of? p.year p.month p.day = some date) (hoffset : p.offset = 0)
    (hsecond : p.hour * 3600 + p.minute * 60 + (if p.second == 60 then 59 else p.second) = second)
    (hnano : p.nano + (if p.second == 60 then nanosPerSecond else 0) = nano)
    (h : IsTime second nano) (hregular : IsRegularTime second nano) :
    p.instant = .ok ⟨⟨date, second, nano, h⟩, hregular⟩ := by
  have hzero : (0 : Int).natAbs < secondsPerDay := by decide
  unfold Parts.instant
  dsimp only
  rw [hdate, hoffset, hsecond, hnano]
  dsimp only
  rw [if_pos hzero, ofLocal?_zero date h hregular]

/-- A leap second is written as the sixtieth, and no other second is. -/
theorem writtenParts_second (t : Instant) : (t.writtenParts.second == 60) = t.isLeap := by
  have hleap := t.isRegular
  unfold Timestamp.writtenParts
  cases h : t.isLeap with
  | true =>
    have hlast := hleap (by simpa [Timestamp.isLeap] using h)
    simp [hlast]
  | false =>
    have : t.second % 60 < 60 := Nat.mod_lt _ (by omega)
    simp
    omega

/-- The parts of an instant make it up again. -/
theorem writtenParts_instant (t : Instant) : t.writtenParts.instant = .ok t := by
  obtain ⟨-, hnano⟩ := t.isTime
  have hleap := t.isRegular
  have hdate : Date.of? t.date.year t.date.month t.date.day = some t.date := dif_pos t.date.isDate
  have hsecond : t.second / 3600 * 3600 + t.second / 60 % 60 * 60 +
      (if t.writtenParts.second == 60 then 59 else t.writtenParts.second) = t.second := by
    rw [writtenParts_second]
    cases h : t.isLeap with
    | true =>
      have hlast := hleap (by simpa [Timestamp.isLeap] using h)
      simp only [if_true]
      omega
    | false =>
      simp only [Timestamp.writtenParts, h, Bool.false_eq_true, if_false]
      omega
  have hwhole : t.nano % nanosPerSecond +
      (if t.writtenParts.second == 60 then nanosPerSecond else 0) = t.nano := by
    rw [writtenParts_second]
    by_cases h : nanosPerSecond ≤ t.nano
    · have hl : t.isLeap = true := by simpa [Timestamp.isLeap] using h
      rw [if_pos hl, Nat.mod_eq_sub_mod h, Nat.mod_eq_of_lt (by omega)]
      omega
    · have hl : t.isLeap = false := by simpa [Timestamp.isLeap] using h
      rw [if_neg (by simp [hl]), Nat.mod_eq_of_lt (by omega)]
      omega
  have hoffset : t.writtenParts.offset = 0 := rfl
  exact Parts.instant_eq hdate hoffset hsecond hwhole t.isTime t.isRegular

/-- The instant that a timestamp's text spells is read back from it. -/
theorem parse_text (t : Timestamp) : parse t.text = .ok t.spelled := by
  unfold parse Timestamp.text
  rw [String.toList_ofList, parts_chars, ok_bind, ← t.writtenParts_spelled]
  exact t.spelled.writtenParts_instant

/-! ## Timestamps as a listing shows them -/

end Instant

namespace Timestamp

theorem isTime_wholeSecond (t : Timestamp) :
    IsTime t.second (if t.isLeap then nanosPerSecond else 0) := by
  refine ⟨t.isTime.1, ?_⟩
  split <;> decide

/-- The timestamp with its part of a second left out. A leap second is a second of its own. -/
def wholeSecond (t : Timestamp) : Timestamp :=
  ⟨t.date, t.second, if t.isLeap then nanosPerSecond else 0, t.isTime_wholeSecond⟩

theorem isLeap_wholeSecond (t : Timestamp) : t.wholeSecond.isLeap = t.isLeap := by
  change decide (nanosPerSecond ≤ if t.isLeap then nanosPerSecond else 0) = t.isLeap
  cases t.isLeap <;> rfl

theorem isRegular_wholeSecond {t : Timestamp} (h : t.IsRegular) : t.wholeSecond.IsRegular := by
  intro hle
  have hleap : t.wholeSecond.isLeap = true := by simpa [isLeap] using hle
  rw [isLeap_wholeSecond] at hleap
  exact h (by simpa [isLeap] using hleap)

theorem writtenParts_wholeSecond (t : Timestamp) :
    t.wholeSecond.writtenParts = { t.writtenParts with nano := 0 } := by
  have hnano : t.wholeSecond.nano % nanosPerSecond = 0 := by
    change (if t.isLeap then nanosPerSecond else 0) % nanosPerSecond = 0
    cases t.isLeap <;> rfl
  unfold writtenParts
  rw [isLeap_wholeSecond, hnano]
  rfl

/-- Whole seconds of the instant that is spelled are all that a listing shows. -/
theorem listingText_wholeSecond (t : Timestamp) :
    t.spelled.toTimestamp.wholeSecond.listingText = t.listingText := by
  have htime : t.spelled.toTimestamp.wholeSecond.timeChars = t.timeChars := by
    rw [← t.timeChars_spelled]
    unfold timeChars
    rw [isLeap_wholeSecond]
    rfl
  have hdate : t.spelled.toTimestamp.wholeSecond.dateChars = t.dateChars := by
    have hdate : t.spelled.toTimestamp.wholeSecond.date = t.date := t.date_spelled
    unfold dateChars
    rw [hdate]
  unfold listingText
  rw [htime, hdate]

end Timestamp

namespace Instant

/-- The whole second of a timestamp is read back from its line in a listing. -/
theorem parse_listingText (t : Timestamp) : parse t.listingText =
    .ok ⟨t.spelled.toTimestamp.wholeSecond,
      Timestamp.isRegular_wholeSecond t.spelled.isRegular⟩ := by
  have hchars : t.listingText.toList = t.dateChars ++ ' ' :: (t.timeChars ++ " UTC".toList) := by
    simp [Timestamp.listingText]
  have htail : fraction " UTC".toList = .ok (0, " UTC".toList) := rfl
  have hinstant := writtenParts_instant
    ⟨t.spelled.toTimestamp.wholeSecond, Timestamp.isRegular_wholeSecond t.spelled.isRegular⟩
  rw [Timestamp.writtenParts_wholeSecond, t.writtenParts_spelled] at hinstant
  unfold parse
  rw [hchars, parts_dateAndTime t (fun _ => rfl) htail rfl, ok_bind, ← hinstant]
  rfl

/-- The instant from which clocks count. -/
def epoch : Instant :=
  ⟨⟨⟨1970, 1, 1, by decide⟩, 0, 0, by decide⟩, by decide⟩

end Instant
end ScopedSettings
