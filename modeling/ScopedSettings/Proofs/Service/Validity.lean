/-
Services that hold and hand out valid records only.

A service is given records by its store, by those who write, and by whoever makes entries
and events of them. Where the store has a valid record or none, an act that is given valid
records and accepted updates keeps all records of the service valid, and is answered with
valid ones (`Service.HoldsValid.carryOut`). The courses of the service give their acts
nothing else (`Course.Proper`): a write is checked before it is committed, and what is
kept or told of is what the store has answered. So this stays so however courses are
interleaved, and their values show valid records (`Concourse.HoldsValid.after`).
-/
import ScopedSettings.Proofs.Http.Traffic
import ScopedSettings.Proofs.Settings.Validity
import ScopedSettings.Proofs.Strand.Ends
import ScopedSettings.CommandLine.Maintenance

namespace ScopedSettings

open Strand (Ends)

/-! ## Entries -/

namespace ScopeCache

variable {α : Type} {P : α → Prop} {c : ScopeCache α}

/-- Is every entry of a kind? -/
def Every (P : α → Prop) (c : ScopeCache α) : Prop :=
  ∀ e ∈ c.entries, P e.2

theorem Every.peek? (h : c.Every P) {w : WorkerId} {a : α} (ha : c.peek? w = some a) : P a := by
  unfold ScopeCache.peek? at ha
  obtain ⟨e, hfound, rfl⟩ := Option.map_eq_some_iff.mp ha
  exact h e (List.mem_of_find?_eq_some hfound)

theorem Every.get (h : c.Every P) (w : WorkerId) : (c.get w).2.Every P := by
  unfold ScopeCache.get
  split <;> exact h

theorem Every.without (h : c.Every P) (w : WorkerId) :
    ∀ e ∈ ScopeCache.without c.entries w, P e.2 :=
  fun e he => h e (List.mem_of_mem_filter he)

theorem Every.put (h : c.Every P) (w : WorkerId) {a : α} (ha : P a) : (c.put w a).Every P :=
  List.forall_mem_cons.mpr ⟨ha, h.without w⟩

theorem Every.clear (h : c.Every P) (w : WorkerId) : (c.clear w).2.Every P := by
  unfold ScopeCache.clear
  split
  · exact h.without w
  · exact h

end ScopeCache

/-! ## Stores -/

namespace RecordStore

/-- A store that keeps its record itself, along a straight path if in a file, and whose
record is valid if there is one. -/
structure HoldsValid (b : RecordStore) : Prop where
  isKept : b.IsKept
  isStraight : b.IsStraight
  record (s : Settings) (h : b.record? = some s) : s.IsValid

variable {b : RecordStore}

theorem HoldsValid.follows {b' : RecordStore} (h : b.HoldsValid) (hb' : Follows b b') :
    b'.HoldsValid where
  isKept := hb'.isKept
  isStraight := b'.steady_conditions ▸ hb'.conditions.steady (b.steady_conditions ▸ h.isStraight)
  record s hs := by
    rw [← record?_stored, hb'.stored_eq, record?_stored] at hs
    exact h.record s hs

theorem HoldsValid.load (h : b.HoldsValid) :
    (Backend.load b).1.HoldsValid ∧
      ∃ answer, (Backend.load b).2 = .now answer ∧ ∀ s, answer = .ok s → s.IsValid := by
  obtain ⟨hfollows, answer, hanswer, hrecord⟩ := load_spec h.isKept
  refine ⟨h.follows hfollows, answer, hanswer, fun s hs => h.record s ?_⟩
  rw [← record?_stored, hrecord s hs]
  rfl

/-- An accepted update is applied to a valid record, or to the defaults. -/
theorem HoldsValid.commit (h : b.HoldsValid) {u : Update} (hu : u.validate = .ok ())
    (now : Instant) :
    (Backend.commit b u now).1.HoldsValid ∧
      ∃ answer, (Backend.commit b u now).2 = .now answer ∧ ∀ s, answer = .ok s → s.IsValid := by
  obtain ⟨answer, hanswer, hcommitted⟩ := commit_spec h.isKept u now
  have hsteady : b.conditions.steady := b.steady_conditions ▸ h.isStraight
  have hupdated : (u.apply (b.stored.record?.getD .default) now).IsValid := by
    rw [record?_stored]
    refine Update.isValid_apply hu ?_ now
    cases hrecord : b.record? with
    | none => exact Settings.isValid_default
    | some s => exact h.record s hrecord
  refine ⟨⟨hcommitted.isKept, ?_, fun s hs => ?_⟩, answer, hanswer, ?_⟩
  · rw [← steady_conditions]
    exact hcommitted.conditions.steady hsteady
  · rw [← record?_stored] at hs
    rcases hcommitted.commits.record?_cases hsteady hs with hold | rfl
    · exact h.record s ((b.record?_stored).symm.trans hold)
    · exact hupdated
  · rintro s rfl
    rw [hcommitted.commits.ok_eq]
    exact hupdated

end RecordStore

/-! ## Acts -/

namespace Act

/-- Is an act given valid records, and accepted updates, only? -/
def IsProper : Act → Prop
  | .keep _ s => s.IsValid
  | .commit u _ => u.validate = .ok ()
  | .notify e | .announce e => e.settings.IsValid
  | _ => True

/-- Is the record in an act's answer valid, if there is one? -/
def AnswersValid : (a : Act) → a.Answer → Prop
  | .lookUp _, found => ∀ s, found = some s → s.IsValid
  | .fetch, answer | .commit _ _, answer => ∀ s, answer = .ok s → s.IsValid
  | _, _ => True

end Act

namespace Service

/-- A service all of whose records are valid: in its store, its entries, its notes and its
channel. -/
structure HoldsValid (r : Service RecordStore) : Prop where
  backend : r.backend.HoldsValid
  entries : r.cache.Every Settings.IsValid
  notes : ∀ n ∈ r.notes, n.event.settings.IsValid
  kept : ∀ e ∈ r.channel.kept, e.settings.IsValid

variable {r : Service RecordStore}

theorem HoldsValid.tell (h : r.HoldsValid) {e : WriteEvent} (he : e.settings.IsValid)
    (l : Listener) : (r.tell e l).HoldsValid := by
  have hnotes (name : String) :
      ∀ n ∈ r.notes ++ [⟨name, r.cache.contains e.writer, e⟩], n.event.settings.IsValid := by
    intro n hn
    rcases List.mem_append.mp hn with hn | hn
    · exact h.notes n hn
    · rw [List.mem_singleton.mp hn]
      exact he
  cases l with
  | invalidation => exact { h with entries := h.entries.clear e.writer }
  | recorder name | growing name => exact { h with notes := hnotes name }

theorem HoldsValid.notify (h : r.HoldsValid) {e : WriteEvent} (he : e.settings.IsValid) :
    (r.notify e).HoldsValid :=
  notify_induction h fun _ l h => h.tell he l

theorem HoldsValid.announce (h : r.HoldsValid) {e : WriteEvent} (he : e.settings.IsValid) :
    HoldsValid { r with channel := r.channel.send e } := by
  refine { h with kept := fun e' he' => ?_ }
  rcases List.mem_append.mp (List.mem_of_mem_drop he') with he' | he'
  · exact h.kept e' he'
  · rw [List.mem_singleton.mp he']
    exact he

theorem HoldsValid.abandon (h : r.HoldsValid) (held : List WorkerId) :
    (r.abandon held).HoldsValid := by
  have hentries : ∀ c : ScopeCache Settings, c.Every Settings.IsValid →
      (held.foldl (fun c w => (c.clear w).2) c).Every Settings.IsValid := by
    intro c hc
    exact List.foldlRecOn held _ (motive := ScopeCache.Every Settings.IsValid) hc
      fun _ hc w _ => hc.clear w
  exact { h with entries := hentries r.cache h.entries }

/-- An act that is given what it may keeps all records valid, and is answered with valid
ones. -/
theorem HoldsValid.carryOut (h : r.HoldsValid) {a : Act} (ha : a.IsProper) :
    (r.carryOut a).2.HoldsValid ∧
      ∀ waited x, (r.carryOut a).1 = some (waited, x) → a.AnswersValid x := by
  cases a with
  | enroll | stats => exact ⟨⟨h.backend, h.entries, h.notes, h.kept⟩, fun _ _ _ => trivial⟩
  | lookUp w =>
    refine ⟨{ h with entries := h.entries.get w }, ?_⟩
    intro waited x hx s hs
    have hfound : (r.cache.get w).1 = x := (Prod.mk.inj (Option.some.inj hx)).2
    rw [ScopeCache.get_fst] at hfound
    exact h.entries.peek? (hfound.trans hs)
  | keep w s => exact ⟨{ h with entries := h.entries.put w ha }, fun _ _ _ => trivial⟩
  | forget w => exact ⟨{ h with entries := h.entries.clear w }, fun _ _ _ => trivial⟩
  | fetch =>
    obtain ⟨hbackend, answer, hanswer, hvalid⟩ := h.backend.load
    refine ⟨{ h with backend := hbackend }, ?_⟩
    intro waited x hx
    change awaitFetch (Backend.name r.backend) r.fetchTimeout (Backend.load r.backend).2 = _ at hx
    rw [hanswer, awaitFetch_now] at hx
    obtain rfl : answer = x := (Prod.mk.inj (Option.some.inj hx)).2
    exact hvalid
  | commit u now =>
    obtain ⟨hbackend, answer, hanswer, hvalid⟩ := h.backend.commit ha now
    refine ⟨{ h with backend := hbackend }, ?_⟩
    intro waited x hx
    change await (Backend.commit r.backend u now).2 = _ at hx
    rw [hanswer] at hx
    obtain rfl : answer = x := (Prod.mk.inj (Option.some.inj hx)).2
    exact hvalid
  | notify e => exact ⟨h.notify ha, fun _ _ _ => trivial⟩
  | announce e => exact ⟨h.announce ha, fun _ _ _ => trivial⟩

end Service

/-! ## Courses -/

namespace Course

variable {α γ : Type} {P : α → Prop} {Q : γ → Prop}

/-- Does a course give its acts nothing improper, as long as they answer with valid records,
and end in a value of a kind? -/
inductive Proper (P : α → Prop) : Course α → Prop
  | done {a : α} (h : P a) : Proper P (.done a)
  | step {c : Call} {next : c.Answer → Course α} (hact : c.act.IsProper)
    (hnext : ∀ x, c.act.AnswersValid x → Proper P (next x)) : Proper P (.step c next)

theorem Proper.act {a : Act} (h : a.IsProper) : Proper a.AnswersValid (act a) :=
  .step h fun _ hx => .done hx

theorem Proper.bind {c : Course α} {f : α → Course γ} (h : Proper P c)
    (hf : ∀ a, P a → Proper Q (f a)) : Proper Q (c >>= f) := by
  induction h with
  | done ha => exact hf _ ha
  | step hact _ ih => exact .step hact ih

theorem Proper.map {c : Course α} {f : α → γ} (h : Proper P c) (hf : ∀ a, P a → Q (f a)) :
    Proper Q (f <$> c) :=
  h.bind fun a ha => .done (hf a ha)

theorem Proper.holding {c : Course α} (h : Proper P c) (w : WorkerId) :
    Proper P (c.holding w) := by
  induction h with
  | done ha => exact .done ha
  | step hact _ ih => exact .step hact ih

theorem proper_fetch : Proper (fun x => ∀ s, x = .ok s → s.IsValid) fetch :=
  .act (a := .fetch) trivial

theorem orDefault_isValid {x : Except SettingsError Settings} (h : ∀ s, x = .ok s → s.IsValid) :
    ∀ s, orDefault x = .ok s → s.IsValid := by
  intro s hs
  cases x with
  | ok a => exact h s hs
  | error e =>
    unfold orDefault at hs
    dsimp only at hs
    split at hs
    · cases hs
      exact Settings.isValid_default
    · cases hs

theorem proper_fetchOrDefault :
    Proper (fun x => ∀ s, x = .ok s → s.IsValid) fetchOrDefault :=
  proper_fetch.bind fun _ hx => .done (orDefault_isValid hx)

theorem proper_get (w : WorkerId) (bypass : Bool) :
    Proper (fun x => ∀ s, x = .ok s → s.IsValid) (get w bypass) := by
  cases bypass with
  | true => exact proper_fetchOrDefault
  | false =>
    refine (Proper.act (a := .lookUp w) trivial).bind fun found hfound => ?_
    cases found with
    | none => exact proper_fetchOrDefault
    | some a =>
      refine .done fun s hs => ?_
      cases hs
      exact hfound a rfl

theorem proper_publish (writer : WorkerId) {s : Settings} (h : s.IsValid) (now : Instant) :
    Proper (fun _ => True) (publish writer s now) :=
  (Proper.act (a := .notify (Service.eventOf writer s now)) h).bind fun _ _ =>
    (Proper.act (a := .announce (Service.eventOf writer s now)) h).bind fun _ _ => .done trivial

/-- What a write commits has been accepted. -/
theorem proper_write (writer : WorkerId) (u : Update) (now : Instant) :
    Proper (fun x => ∀ s, x = .ok s → s.IsValid) (write writer u now) := by
  unfold write
  cases hu : u.validate with
  | error e =>
    refine .done fun s hs => ?_
    cases hs
  | ok _ =>
    refine (Proper.act (a := .commit u now) hu).bind fun answer hanswer => ?_
    cases answer with
    | error e =>
      refine .done fun s hs => ?_
      cases hs
    | ok s => exact (proper_publish writer (hanswer s rfl) now).bind fun _ _ => .done hanswer

theorem proper_finish (w : WorkerId) : Proper (fun _ => True) (finish w) :=
  (Proper.act (a := .forget w) trivial).bind fun _ _ => .done trivial

theorem proper_start (w : WorkerId) : Proper (fun _ => True) (start w) := by
  refine (proper_finish w).bind fun _ _ => proper_fetch.bind fun answer hanswer => ?_
  cases answer with
  | error e => exact .done trivial
  | ok s => exact .act (a := .keep w s) (hanswer s rfl)

theorem proper_unit (w : WorkerId) {body : Course α} (h : Proper P body) :
    Proper P (unit w body) := by
  refine (proper_start w).bind fun _ _ => (h.holding w).bind fun a ha => ?_
  exact (proper_finish w).bind fun _ _ => .done ha

end Course

namespace Http

open Course (Proper)

/-- A response without success, or one that shows a valid record. -/
def ServesValid (answer : Response) : Prop :=
  answer.isSuccess = true → ∃ s : Settings, s.IsValid ∧ answer = settingsResponse s

theorem proper_serveSettings (w : WorkerId) : Proper ServesValid (serveSettings w) := by
  refine (Course.proper_get w false).bind fun x hx => .done fun hsuccess => ?_
  cases x with
  | ok s => exact ⟨s, hx s rfl, rfl⟩
  | error e =>
    have hfailed : (readResponse (.error e)).isSuccess = false := isSuccess_errorResponse e
    cases hfailed.symm.trans hsuccess

theorem servesValid_of_failed {answer : Response} (h : answer.isSuccess = false) :
    ServesValid answer := by
  intro hsuccess
  cases h.symm.trans hsuccess

theorem proper_changeSettings (q : Request) (now : Instant) (w : WorkerId) :
    Proper ServesValid (changeSettings q now w) := by
  unfold changeSettings
  cases updateOf q with
  | error f => exact .done (servesValid_of_failed (isSuccess_bodyFault f))
  | ok u =>
    refine (Course.proper_write w u now).bind fun answer _ => ?_
    cases answer with
    | error e => exact .done (servesValid_of_failed (isSuccess_errorResponse e))
    | ok s => exact proper_serveSettings w

theorem proper_settingsHandler (q : Request) (now : Instant) (w : WorkerId) :
    Proper ServesValid (settingsHandler q now w) := by
  unfold settingsHandler
  split
  · exact proper_serveSettings w
  · split
    · exact proper_changeSettings q now w
    · exact .done (servesValid_of_failed rfl)

/-- What a request is answered shows a valid record, if it is for the settings and asks for
more than how they are shared, and has success. -/
def AnswersValid (q : Request) (answer : Response) : Prop :=
  Route.of? q.path = some .settings → q.method ≠ "OPTIONS" → answer.isSuccess = true →
    ∃ s : Settings, s.IsValid ∧ answer = share (trim q (settingsResponse s))

theorem isSuccess_trim (q : Request) (answer : Response) :
    (trim q answer).isSuccess = answer.isSuccess := by
  unfold trim
  split <;> rfl

theorem proper_handle (q : Request) (now : Instant) : Proper (AnswersValid q) (handle q now) := by
  unfold handle
  by_cases hoptions : (q.method == "OPTIONS") = true
  · rw [if_pos hoptions]
    exact .done fun _ hmethod => absurd (by simpa using hoptions) hmethod
  rw [if_neg hoptions]
  cases hplace : Route.of? q.path with
  | none =>
    refine .done fun hsettings => ?_
    rw [hplace] at hsettings
    cases hsettings
  | some p =>
    have helse (hp : p ≠ .settings) (answer : Response) : AnswersValid q answer := by
      intro hsettings
      rw [hplace] at hsettings
      exact absurd (Option.some.inj hsettings) hp
    cases p with
    | settings =>
      have hunit : Proper ServesValid (asUnit (settingsHandler q now)) :=
        (Proper.act (a := .enroll) trivial).bind fun w _ =>
          Course.proper_unit w (proper_settingsHandler q now w)
      refine hunit.bind fun answer hanswer => .done fun _ _ hsuccess => ?_
      have hserved : answer.isSuccess = true := (isSuccess_trim q answer).symm.trans hsuccess
      obtain ⟨s, hs, rfl⟩ := hanswer hserved
      exact ⟨s, hs, rfl⟩
    | stats =>
      unfold Route.handle
      dsimp only
      split
      · refine (Proper.act (a := .stats) trivial).bind fun _ _ => .done ?_
        exact helse Route.noConfusion _
      · exact .done (helse Route.noConfusion _)
    | health => exact .done (helse Route.noConfusion _)

end Http

namespace CommandLine

open Course (Proper)

theorem proper_showSettings (json : Bool) :
    Proper (fun x => ∀ text, x = .ok text →
      ∃ s : Settings, s.IsValid ∧ text = if json then s.prettyText else s.listing)
      (showSettings json) := by
  refine Course.proper_fetchOrDefault.bind fun answer hanswer => ?_
  cases answer with
  | error e =>
    refine .done fun text htext => ?_
    cases htext
  | ok s =>
    refine .done fun text htext => ?_
    cases htext
    exact ⟨s, hanswer s rfl, rfl⟩

theorem proper_changeSettings (writer : WorkerId) (u : Update) (now : Instant) :
    Proper (fun x => ∀ text, x = .ok text → ∃ s : Settings, s.IsValid ∧ text = s.listing)
      (changeSettings writer u now) := by
  refine (Course.proper_write writer u now).bind fun answer hanswer => ?_
  cases answer with
  | error e =>
    refine .done fun text htext => ?_
    cases htext
  | ok s =>
    refine .done fun text htext => ?_
    cases htext
    exact ⟨s, hanswer s rfl, rfl⟩

end CommandLine

/-! ## Courses carried out -/

variable {α : Type} {P : α → Prop}

namespace Service

theorem ends_drop (c : Call) (patience : Option Duration) :
    Ends HoldsValid (fun x => ∀ y, x = some y → P y.1)
      (drop c patience : Strand (Service RecordStore) (Option (α × Option Duration))) := by
  refine Ends.hold _ (.act fun r hr => ⟨?_, hr.abandon c.held⟩)
  intro y hy
  cases hy

/-- A course carried out among others, dropped or not, keeps all records valid. -/
theorem ends_play_of_proper {c : Course α} (hc : c.Proper P) (patience : Option Duration) :
    Ends HoldsValid (fun x => ∀ y, x = some y → P y.1) (play c patience) := by
  induction hc generalizing patience with
  | @done a h =>
    refine .done fun y hy => ?_
    cases hy
    exact h
  | @step c next hact _ ih =>
    simp only [play]
    refine .read fun r hr => ?_
    obtain ⟨hafter, hanswers⟩ := hr.carryOut hact
    refine .write hafter ?_
    split
    · exact ends_drop c patience
    · rename_i waited x hanswer
      split
      · exact (ih x (hanswers waited x hanswer) _).hold _
      · exact ends_drop c patience

end Service

namespace Concourse

/-- Do all callers go on properly, each to a value of its kind, and are all records valid? -/
structure HoldsValid (P : Nat → α → Prop) (c : Concourse RecordStore α) : Prop where
  service : c.service.HoldsValid
  courses (i : Nat) (course : Course α) (h : c.course? i = some course) : course.Proper (P i)

variable {P : Nat → α → Prop} {c : Concourse RecordStore α}

theorem HoldsValid.turn (h : c.HoldsValid P) (i : Nat) : (c.turn i).HoldsValid P := by
  cases ha : c.act? i with
  | none =>
    rw [turn_of_idle ha]
    exact h
  | some a =>
    obtain ⟨call, next, hcourse, rfl⟩ := exists_step_of_act? ha
    cases h.courses i _ hcourse with
    | step hact hnext =>
    obtain ⟨hafter, hanswers⟩ := h.service.carryOut hact
    refine ⟨by rw [service_turn ha]; exact hafter, fun j course hj => ?_⟩
    by_cases hji : j = i
    · subst hji
      rw [course?_turn_self hcourse] at hj
      obtain ⟨⟨waited, x⟩, hanswer, rfl⟩ := Option.map_eq_some_iff.mp hj
      exact hnext x (hanswers waited x hanswer)
    · rw [course?_turn_other c hji] at hj
      exact h.courses j course hj

/-- However the turns of proper courses fall, all records stay valid, and so do those that
the callers come to. -/
theorem HoldsValid.after (h : c.HoldsValid P) (turns : List Nat) :
    (c.after turns).HoldsValid P := by
  induction turns generalizing c with
  | nil => exact h
  | cons i turns ih => exact ih (h.turn i)

theorem HoldsValid.answer (h : c.HoldsValid P) {i : Nat} {a : α} (ha : c.answer? i = some a) :
    P i a := by
  unfold answer? at ha
  split at ha
  · rename_i b hcourse
    cases ha
    cases h.courses i _ hcourse with
    | done hb => exact hb
  · cases ha
  · cases ha

end Concourse
end ScopedSettings
