/-
Requests under way side by side.

Each request has a worker of its own, whose entry no other request touches (`Act.worker?`,
`Traffic.distinct`). So what a request has seen of the store is told by its own turns
(`Story`): what it is about to keep, or finds as its entry, was fetched at one of its turns; once
its write is committed and told of it has no entry, and what it answers was fetched after the
commit. A turn of its own carries the story on (`story_turn`), and another's leaves it.
-/
import ScopedSettings.Proofs.Cache.Contents
import ScopedSettings.Proofs.Http.Stages
import ScopedSettings.Proofs.Service.Committing

namespace ScopedSettings

/-! ## Whose entry an act touches -/

/-- The worker whose entry an act touches, if it touches any. -/
def Act.worker? : Act → Option WorkerId
  | .lookUp w | .keep w _ | .forget w => some w
  | .notify e => some e.writer
  | .enroll | .stats | .fetch | .commit _ _ | .announce _ => none

namespace Service

variable {β : Type} [Backend β]

theorem peek?_carryOut_other (r : Service β) {a : Act} {w : WorkerId} (h : a.worker? ≠ some w) :
    (r.carryOut a).2.cache.peek? w = r.cache.peek? w := by
  have hne {v : WorkerId} (hv : a.worker? = some v) : w ≠ v := by
    rintro rfl
    exact h hv
  cases a with
  | lookUp v => exact r.cache.peek?_get w v
  | keep v s => exact ScopeCache.peek?_put_other _ (hne rfl) s
  | forget v => exact ScopeCache.peek?_clear_other _ (hne rfl)
  | notify e => exact peek?_foldl_tell_other (hne rfl) r.listeners r
  | enroll | stats | fetch | commit u now | announce e => rfl

theorem mem_listeners_carryOut {r : Service β} {l : Listener} (h : l ∈ r.listeners) (a : Act) :
    l ∈ (r.carryOut a).2.listeners := by
  cases a with
  | notify e => exact mem_listeners_foldl_tell r.listeners h
  | enroll | lookUp v | keep v s | forget v | stats | fetch | commit u now | announce e => exact h

omit [Backend β] in
theorem nextWorker_notify (r : Service β) (e : WriteEvent) :
    (r.notify e).nextWorker = r.nextWorker := by
  refine notify_induction (P := fun r' => r'.nextWorker = r.nextWorker) rfl ?_
  intro r' l h
  cases l <;> exact h

/-- Identifiers are only handed out. -/
theorem nextWorker_carryOut (r : Service β) {a : Act} (h : a ≠ .enroll) :
    (r.carryOut a).2.nextWorker = r.nextWorker := by
  cases a with
  | enroll => exact absurd rfl h
  | notify e => exact r.nextWorker_notify e
  | lookUp v | keep v s | forget v | stats | fetch | commit u now | announce e => rfl

end Service

namespace Http

open Concourse

variable {β : Type} [Backend β]

/-! ## Stories -/

/-- The write of a request has been committed at one of its turns, with the given record. -/
def Written (c₀ : Concourse β Response) (turns : List Nat) (i : Nat) (q : Request)
    (s : Settings) : Prop :=
  ∃ before k, c₀.Commits turns i before k ∧ updateOf q = .ok k.update ∧ k.record = s

/-- How a request comes by its answer: with a committed write of its own, by what it has
fetched after that; else a reader by what it has fetched, and any other is refused. -/
inductive Answers (c₀ : Concourse β Response) (turns : List Nat) (i : Nat) (q : Request)
    (answer : Response) : Option Settings → Prop
  | unwritten (h : c₀.Unwritten turns i)
      (hread : q.reads = true →
        ∃ t x, c₀.Fetches turns i t x ∧ answer = readResponse (Course.orDefault x))
      (hother : q.reads = false → answer.isSuccess = false) :
    Answers c₀ turns i q answer none
  | written {before : List Nat} {k : Commit} {t : List Nat} {x : Except SettingsError Settings}
      (hcommit : c₀.Commits turns i before k) (hupdate : updateOf q = .ok k.update)
      (hlater : before ++ [i] <+: t) (hfetch : c₀.Fetches turns i t x)
      (hanswer : answer = readResponse (Course.orDefault x)) :
    Answers c₀ turns i q answer (some k.record)

/-- The unit of a request has started: an entry, if there is one, was fetched. -/
structure Started (c₀ : Concourse β Response) (turns : List Nat) (i : Nat)
    (entry : Option Settings) (v : Visit) : Prop where
  own : v.own = none
  unwritten : c₀.Unwritten turns i
  entry (s : Settings) (h : entry = some s) : ∃ t, c₀.Fetches turns i t (.ok s)

/-- The settings are about to be read, as a reader does it or after a write. -/
inductive Reading (c₀ : Concourse β Response) (turns : List Nat) (i : Nat)
    (entry : Option Settings) (v : Visit) : Prop
  | asReader (hreads : v.request.reads = true) (h : Started c₀ turns i entry v)
  | asWriter {s : Settings} (hown : v.own = some s) (h : Written c₀ turns i v.request s)
      (hentry : entry = none)

/-- No entry has been found, and the store is about to be asked. -/
inductive Missing (c₀ : Concourse β Response) (turns : List Nat) (i : Nat) (v : Visit) : Prop
  | asReader (hreads : v.request.reads = true) (hown : v.own = none)
      (h : c₀.Unwritten turns i)
  | asWriter {s : Settings} (hown : v.own = some s) (h : Written c₀ turns i v.request s)

/-- What the turns of a request have come to, by its stage and its worker's entry. -/
def Story (c₀ : Concourse β Response) (turns : List Nat) (i : Nat) (entry : Option Settings) :
    Stage → Prop
  | .counting _ | .arrived _ _ | .replied _ => c₀.Unwritten turns i
  | .emptying v _ => v.own = none ∧ c₀.Unwritten turns i
  | .fetching v _ => v.own = none ∧ c₀.Unwritten turns i ∧ entry = none
  | .keeping v _ s =>
    v.own = none ∧ c₀.Unwritten turns i ∧ ∃ t, c₀.Fetches turns i t (.ok s)
  | .writing v u _ =>
    v.own = none ∧ c₀.Unwritten turns i ∧ v.request.reads = false ∧ updateOf v.request = .ok u
  | .telling v s _ => v.own = some s ∧ Written c₀ turns i v.request s
  | .announcing v s _ => v.own = some s ∧ Written c₀ turns i v.request s ∧ entry = none
  | .reading v => Reading c₀ turns i entry v
  | .missed v => Missing c₀ turns i v
  | .ending v answer | .answered v answer => Answers c₀ turns i v.request answer v.own

variable {c₀ : Concourse β Response} {turns : List Nat} {i j : Nat} {q : Request}

theorem Written.concat {s : Settings} (h : Written c₀ turns i q s)
    (hj : j = i → (c₀.after turns).commit? i = none) : Written c₀ (turns ++ [j]) i q s := by
  obtain ⟨before, k, hcommit, h⟩ := h
  exact ⟨before, k, hcommit.concat hj, h⟩

theorem Answers.concat {answer : Response} {own : Option Settings}
    (h : Answers c₀ turns i q answer own)
    (hj : j = i → (c₀.after turns).commit? i = none) :
    Answers c₀ (turns ++ [j]) i q answer own := by
  cases h with
  | unwritten h hread hother =>
    refine .unwritten (h.concat hj) (fun hq => ?_) hother
    obtain ⟨t, x, hfetch, hanswer⟩ := hread hq
    exact ⟨t, x, hfetch.concat j, hanswer⟩
  | written hcommit hupdate hlater hfetch hanswer =>
    exact .written (hcommit.concat hj) hupdate hlater (hfetch.concat j) hanswer

theorem Started.concat {entry : Option Settings} {v : Visit} (h : Started c₀ turns i entry v)
    (hj : j = i → (c₀.after turns).commit? i = none) :
    Started c₀ (turns ++ [j]) i entry v where
  own := h.own
  unwritten := h.unwritten.concat hj
  entry s hs := by
    obtain ⟨t, hfetch⟩ := h.entry s hs
    exact ⟨t, hfetch.concat j⟩

/-- A turn that commits nothing of a request's own, and leaves its entry, leaves its story. -/
theorem Story.concat {entry : Option Settings} {st : Stage} (h : Story c₀ turns i entry st)
    (hj : j = i → (c₀.after turns).commit? i = none) : Story c₀ (turns ++ [j]) i entry st := by
  cases st with
  | counting q | arrived q now | replied answer => exact Unwritten.concat h hj
  | emptying v now => exact ⟨h.1, h.2.concat hj⟩
  | fetching v now => exact ⟨h.1, h.2.1.concat hj, h.2.2⟩
  | keeping v now s =>
    obtain ⟨hown, hunwritten, t, hfetch⟩ := h
    exact ⟨hown, hunwritten.concat hj, t, hfetch.concat j⟩
  | writing v u now => exact ⟨h.1, h.2.1.concat hj, h.2.2⟩
  | telling v s now => exact ⟨h.1, h.2.concat hj⟩
  | announcing v s now => exact ⟨h.1, h.2.1.concat hj, h.2.2⟩
  | reading v =>
    cases h with
    | asReader hreads h => exact .asReader hreads (h.concat hj)
    | asWriter hown h hentry => exact .asWriter hown (h.concat hj) hentry
  | missed v =>
    cases h with
    | asReader hreads hown h => exact .asReader hreads hown (h.concat hj)
    | asWriter hown h => exact .asWriter hown (h.concat hj)
  | ending v answer | answered v answer => exact Answers.concat h hj

/-! ## A turn of a request's own -/

/-- The request to the settings that a stage is one of, with the worker it has been given. -/
def Stage.caller? : Stage → Option (Request × Option WorkerId)
  | .arrived q _ => some (q, none)
  | st => st.visit?.map fun v => (v.request, some v.worker)

def Stage.subject? (st : Stage) : Option Request :=
  st.caller?.map Prod.fst

def Stage.worker? (st : Stage) : Option WorkerId :=
  st.caller?.bind Prod.snd

/-- The entry of the worker that a request has been given. -/
def Stage.cached? (st : Stage) (c : ScopeCache Settings) : Option Settings :=
  st.worker?.bind c.peek?

theorem isSuccess_errorResponse (e : SettingsError) : (errorResponse e).isSuccess = false := by
  cases e <;> rfl

theorem isSuccess_bodyFault (f : BodyFault) : f.response.isSuccess = false := by
  cases f with
  | mediaType | tooLong => rfl
  | unreadable p => cases p <;> rfl

/-- A request that is not a reader and has nothing to write is refused. -/
theorem isSuccess_of_taskOf {now : Instant} {answer : Response}
    (h : taskOf q now = .reply answer) : answer.isSuccess = false := by
  unfold taskOf at h
  split at h
  · cases h
  split at h
  · unfold changeOf at h
    split at h
    · cases h
      exact isSuccess_bodyFault _
    · split at h
      · cases h
        exact isSuccess_errorResponse _
      · cases h
  · cases h
    rfl

theorem reads_of_taskOf {now : Instant} (h : taskOf q now = .read) : q.reads = true := by
  unfold taskOf changeOf at h
  split at h
  · assumption
  · split at h
    · split at h
      · cases h
      · split at h <;> cases h
    · cases h

theorem updateOf_of_taskOf {now now' : Instant} {u : Update} (h : taskOf q now = .write u now') :
    q.reads = false ∧ updateOf q = .ok u := by
  unfold taskOf changeOf at h
  split at h
  · cases h
  · rename_i hreads
    split at h
    · split at h
      · cases h
      · rename_i u' hu
        split at h
        · cases h
        · cases h
          exact ⟨by simpa using hreads, hu⟩
    · cases h

theorem not_reads_of_taskOf {now : Instant} {answer : Response}
    (h : taskOf q now = .reply answer) : q.reads = false := by
  unfold taskOf at h
  split at h
  · cases h
  · rename_i hreads
    simpa using hreads

theorem cached?_begun (v : Visit) (now : Instant) (c : ScopeCache Settings) :
    (Stage.begun v now).cached? c = c.peek? v.worker := by
  unfold Stage.begun
  cases taskOf v.request now <;> rfl

/-- A unit that has started begins with what its request has come for. -/
theorem story_begun {c : ScopeCache Settings} {v : Visit}
    (h : Started c₀ turns i (c.peek? v.worker) v) (now : Instant) :
    Story c₀ turns i ((Stage.begun v now).cached? c) (.begun v now) := by
  rw [cached?_begun]
  unfold Stage.begun
  cases htask : taskOf v.request now with
  | read => exact .asReader (reads_of_taskOf htask) h
  | write u now' =>
    obtain ⟨hreads, hu⟩ := updateOf_of_taskOf htask
    exact ⟨h.own, h.unwritten, hreads, hu⟩
  | reply answer =>
    change Answers c₀ turns i v.request answer v.own
    rw [h.own]
    refine .unwritten h.unwritten (fun hreads => ?_) fun _ => isSuccess_of_taskOf htask
    rw [not_reads_of_taskOf htask] at hreads
    cases hreads

/-- The story of a request after a turn of its own, by the answer to its act and the service
then. -/
def Continues (c₀ : Concourse β Response) (turns : List Nat) (i : Nat) (st : Stage) (a : Act)
    (answer : Service.Awaited a.Answer) (r : Service β) : Prop :=
  Story c₀ (turns ++ [i]) i ((plan.onward st a answer).cached? r.cache) (plan.onward st a answer)

/-- The moment of a fetch that is answered now. -/
theorem fetches_now {waited : Duration} {x : Except SettingsError Settings}
    (hact : (c₀.after turns).act? i = some .fetch)
    (hanswer : ((c₀.after turns).service.carryOut .fetch).1 = some (waited, x)) :
    c₀.Fetches (turns ++ [i]) i turns x :=
  ⟨List.prefix_refl _, hact, waited, hanswer⟩

section

variable {v : Visit} {now : Instant} {r : Service β}

theorem commit?_of_quiet {a : Act} (hact : (c₀.after turns).act? i = some a)
    (ha : ∀ u now, a ≠ .commit u now) : i = i → (c₀.after turns).commit? i = none :=
  fun _ => commit?_of_act? hact ha

theorem continues_fetching (hr : (c₀.after turns).service = r)
    (hact : (c₀.after turns).act? i = some .fetch)
    (h : Story c₀ turns i (r.cache.peek? v.worker) (.fetching v now)) :
    Continues c₀ turns i (.fetching v now) .fetch (r.carryOut .fetch).1 (r.carryOut .fetch).2 := by
  obtain ⟨hown, hunwritten, hentry⟩ := h
  have hquiet := commit?_of_quiet hact (by simp)
  subst hr
  cases hanswer : ((c₀.after turns).service.carryOut .fetch).1 with
  | none => exact ⟨hown, hunwritten.concat hquiet, hentry⟩
  | some answered =>
    obtain ⟨waited, answer⟩ := answered
    cases answer with
    | error e =>
      refine story_begun ⟨hown, hunwritten.concat hquiet, fun s hs => ?_⟩ now
      cases hentry.symm.trans hs
    | ok s => exact ⟨hown, hunwritten.concat hquiet, turns, fetches_now hact hanswer⟩

theorem continues_keeping {s : Settings}
    (hact : (c₀.after turns).act? i = some (.keep v.worker s)) {entry : Option Settings}
    (h : Story c₀ turns i entry (.keeping v now s)) (r : Service β) :
    Continues c₀ turns i (.keeping v now s) (.keep v.worker s) (r.carryOut (.keep v.worker s)).1
      (r.carryOut (.keep v.worker s)).2 := by
  obtain ⟨hown, hunwritten, t, hfetch⟩ := h
  refine story_begun ⟨hown, hunwritten.concat (commit?_of_quiet hact (by simp)), fun a ha => ?_⟩ now
  have hself : (r.carryOut (.keep v.worker s)).2.cache.peek? v.worker = some s :=
    ScopeCache.peek?_put_self _ _ _
  cases hself.symm.trans ha
  exact ⟨t, hfetch.concat i⟩

theorem continues_writing {u : Update} (hr : (c₀.after turns).service = r)
    (hact : (c₀.after turns).act? i = some (.commit u now)) {entry : Option Settings}
    (h : Story c₀ turns i entry (.writing v u now)) :
    Continues c₀ turns i (.writing v u now) (.commit u now) (r.carryOut (.commit u now)).1
      (r.carryOut (.commit u now)).2 := by
  obtain ⟨hown, hunwritten, hreads, hu⟩ := h
  subst hr
  cases hanswer : ((c₀.after turns).service.carryOut (.commit u now)).1 with
  | none =>
    have hnone := commit?_of_failed hact fun _ _ h => by cases hanswer.symm.trans h
    exact ⟨hown, hunwritten.concat fun _ => hnone, hreads, hu⟩
  | some answered =>
    obtain ⟨waited, answer⟩ := answered
    cases answer with
    | error e =>
      have hnone := commit?_of_failed hact fun _ _ h => by cases hanswer.symm.trans h
      change Answers c₀ (turns ++ [i]) i v.request (errorResponse e) v.own
      rw [hown]
      refine .unwritten (hunwritten.concat fun _ => hnone) (fun h => ?_) fun _ =>
        isSuccess_errorResponse e
      rw [hreads] at h
      cases h
    | ok s =>
      have hcommit : (c₀.after turns).commit? i = some ⟨u, now, s⟩ :=
        commit?_eq_some_iff.mpr ⟨hact, waited, hanswer⟩
      exact ⟨rfl, turns, ⟨u, now, s⟩, hunwritten.commits hcommit, hu, rfl⟩

theorem continues_telling {s : Settings}
    (hact : (c₀.after turns).act? i = some (.notify (Service.eventOf v.worker s now)))
    (hl : .invalidation ∈ r.listeners) {entry : Option Settings}
    (h : Story c₀ turns i entry (.telling v s now)) :
    Continues c₀ turns i (.telling v s now) (.notify (Service.eventOf v.worker s now))
      (r.carryOut (.notify (Service.eventOf v.worker s now))).1
      (r.carryOut (.notify (Service.eventOf v.worker s now))).2 := by
  obtain ⟨hown, hwritten⟩ := h
  exact ⟨hown, hwritten.concat (commit?_of_quiet hact (by simp)),
    Service.peek?_foldl_tell_self (e := Service.eventOf v.worker s now) hl r⟩

theorem continues_reading (hact : (c₀.after turns).act? i = some (.lookUp v.worker))
    (h : Story c₀ turns i (r.cache.peek? v.worker) (.reading v)) :
    Continues c₀ turns i (.reading v) (.lookUp v.worker) (r.carryOut (.lookUp v.worker)).1
      (r.carryOut (.lookUp v.worker)).2 := by
  have hquiet := commit?_of_quiet hact (by simp)
  have hfound : (r.carryOut (.lookUp v.worker)).1 = Service.atOnce (r.cache.peek? v.worker) :=
    congrArg Service.atOnce (ScopeCache.get_fst _ _)
  rw [hfound]
  cases hentry : r.cache.peek? v.worker with
  | none =>
    cases h with
    | asReader hreads h => exact .asReader hreads h.own (h.unwritten.concat hquiet)
    | asWriter hown h _ => exact .asWriter hown (h.concat hquiet)
  | some s =>
    cases h with
    | asWriter hown h hnone => cases hnone.symm.trans hentry
    | asReader hreads h =>
      obtain ⟨t, hfetch⟩ := h.entry s hentry
      change Answers c₀ (turns ++ [i]) i v.request (settingsResponse s) v.own
      rw [h.own]
      refine .unwritten (h.unwritten.concat hquiet) (fun _ => ⟨t, .ok s, hfetch.concat i, rfl⟩) ?_
      intro hother
      rw [hreads] at hother
      cases hother

theorem continues_missed (hr : (c₀.after turns).service = r)
    (hact : (c₀.after turns).act? i = some .fetch) {entry : Option Settings}
    (h : Story c₀ turns i entry (.missed v)) :
    Continues c₀ turns i (.missed v) .fetch (r.carryOut .fetch).1 (r.carryOut .fetch).2 := by
  have hquiet := commit?_of_quiet hact (by simp)
  subst hr
  cases hanswer : ((c₀.after turns).service.carryOut .fetch).1 with
  | none => exact h.concat hquiet
  | some answered =>
    obtain ⟨waited, x⟩ := answered
    have hfetch := fetches_now hact hanswer
    change Answers c₀ (turns ++ [i]) i v.request (readResponse (Course.orDefault x)) v.own
    cases h with
    | asReader hreads hown h =>
      rw [hown]
      refine .unwritten (h.concat hquiet) (fun _ => ⟨turns, x, hfetch, rfl⟩) fun hother => ?_
      rw [hreads] at hother
      cases hother
    | asWriter hown h =>
      obtain ⟨before, k, hcommit, hu, rfl⟩ := h
      rw [hown]
      exact .written (hcommit.concat hquiet) hu hcommit.isPrefix hfetch rfl

/-- A turn of a request's own carries its story on. -/
theorem story_turn {st : Stage} {a : Act} (hr : (c₀.after turns).service = r)
    (hact : (c₀.after turns).act? i = some a) (hst : st.act? = some a)
    (hl : .invalidation ∈ r.listeners) (h : Story c₀ turns i (st.cached? r.cache) st) :
    Continues c₀ turns i st a (r.carryOut a).1 (r.carryOut a).2 := by
  cases st with
  | counting q =>
    cases hst
    exact Unwritten.concat h (commit?_of_quiet hact (by simp))
  | arrived q now =>
    cases hst
    exact ⟨rfl, Unwritten.concat h (commit?_of_quiet hact (by simp))⟩
  | emptying v now =>
    cases hst
    exact ⟨h.1, h.2.concat (commit?_of_quiet hact (by simp)), ScopeCache.peek?_clear_self _ _⟩
  | fetching v now =>
    cases hst
    exact continues_fetching hr hact h
  | keeping v now s =>
    cases hst
    exact continues_keeping hact h r
  | writing v u now =>
    cases hst
    exact continues_writing hr hact h
  | telling v s now =>
    cases hst
    exact continues_telling hact hl h
  | announcing v s now =>
    cases hst
    exact .asWriter h.1 (h.2.1.concat (commit?_of_quiet hact (by simp))) h.2.2
  | reading v =>
    cases hst
    exact continues_reading hact h
  | missed v =>
    cases hst
    exact continues_missed hr hact h
  | ending v answer =>
    cases hst
    exact Answers.concat h (commit?_of_quiet hact (by simp))
  | answered v answer | replied answer => cases hst

end

/-! ## Whose worker is whose -/

/-- A worker is handed out to a request that arrives. -/
theorem arrived_of_enroll {st : Stage} (hst : st.act? = some .enroll) :
    ∃ q now, st = .arrived q now := by
  cases st with
  | arrived q now => exact ⟨q, now, rfl⟩
  | _ => cases hst

/-- A request touches no entry but that of its worker. -/
theorem worker?_of_act? {st : Stage} {a : Act} (hst : st.act? = some a) {w : WorkerId}
    (ha : a.worker? = some w) : st.worker? = some w := by
  cases st with
  | emptying v now | keeping v now s | telling v s now | reading v | ending v answer =>
    cases hst
    exact ha
  | counting q | arrived q now | fetching v now | writing v u now | announcing v s now
  | missed v =>
    cases hst
    cases ha
  | answered v answer | replied answer => cases hst

theorem caller?_begun (v : Visit) (now : Instant) :
    (Stage.begun v now).caller? = some (v.request, some v.worker) := by
  unfold Stage.begun
  cases taskOf v.request now <;> rfl

/-- Once a request has arrived it keeps its worker. -/
theorem Stage.Leads.caller?_eq {st st' : Stage} {a : Act} (h : st.Leads a st') (ha : a ≠ .enroll) :
    st'.caller? = st.caller? := by
  cases h with
  | enrolled => exact absurd rfl ha
  | unfetched v now | kept v now s => exact caller?_begun v now
  | _ => rfl

theorem caller?_onward {st : Stage} {a : Act} (hst : st.act? = some a) (ha : a ≠ .enroll)
    (answer : Service.Awaited a.Answer) : (plan.onward st a answer).caller? = st.caller? := by
  rcases onward_cases hst answer with hsame | hleads
  · rw [hsame]
  · exact hleads.caller?_eq ha

theorem subject?_onward {st : Stage} {a : Act} (hst : st.act? = some a)
    (answer : Service.Awaited a.Answer) : (plan.onward st a answer).subject? = st.subject? := by
  by_cases ha : a = .enroll
  · subst ha
    obtain ⟨q, now, rfl⟩ := arrived_of_enroll hst
    cases answer <;> rfl
  · exact congrArg (Option.map Prod.fst) (caller?_onward hst ha answer)

/-- Requests after turns: their workers have been handed out, each to one of them, and every
request has its story. -/
structure Traffic (c₀ : Concourse β Response) (turns : List Nat) (stages : Nat → Stage) : Prop where
  invalidates : .invalidation ∈ (c₀.after turns).service.listeners
  numbered {i : Nat} {w : WorkerId} (h : (stages i).worker? = some w) :
    w.number < (c₀.after turns).service.nextWorker.number
  distinct {i j : Nat} {w : WorkerId} (hi : (stages i).worker? = some w)
    (hj : (stages j).worker? = some w) : i = j
  story (i : Nat) :
    Story c₀ turns i ((stages i).cached? (c₀.after turns).service.cache) (stages i)

variable {stages : Nat → Stage}

/-- The turn of a request without an act. -/
theorem Traffic.idle (h : Traffic c₀ turns stages) (hact : (c₀.after turns).act? i = none) :
    Traffic c₀ (turns ++ [i]) stages := by
  have hafter : c₀.after (turns ++ [i]) = c₀.after turns := by
    rw [after_concat, turn_of_idle hact]
  have hnone : (c₀.after turns).commit? i = none := by
    unfold commit?
    rw [hact]
  refine ⟨?_, ?_, h.distinct, fun j => ?_⟩
  · rw [hafter]
    exact h.invalidates
  · intro j w hj
    rw [hafter]
    exact h.numbered hj
  · rw [hafter]
    refine (h.story j).concat ?_
    rintro rfl
    exact hnone

/-- A worker after a turn has been given before, or is handed out at the turn. -/
theorem worker?_update_cases {r : Service β} {a : Act} (hst : (stages i).act? = some a)
    {w : WorkerId}
    (hj : (Function.update stages i (plan.onward (stages i) a (r.carryOut a).1) j).worker? =
      some w) :
    (stages j).worker? = some w ∨ j = i ∧ a = .enroll ∧ w = r.nextWorker := by
  by_cases hji : j = i
  · subst hji
    rw [Function.update_self] at hj
    by_cases ha : a = .enroll
    · subst ha
      obtain ⟨q, now, harrived⟩ := arrived_of_enroll hst
      rw [harrived] at hj
      cases hj
      exact .inr ⟨rfl, rfl, rfl⟩
    · unfold Stage.worker? at hj
      rw [caller?_onward hst ha] at hj
      exact .inl hj
  · rw [Function.update_of_ne hji] at hj
    exact .inl hj

theorem le_nextWorker_carryOut (r : Service β) (a : Act) :
    r.nextWorker.number ≤ (r.carryOut a).2.nextWorker.number := by
  by_cases ha : a = .enroll
  · subst ha
    exact Nat.le_succ _
  · exact Nat.le_of_eq (congrArg _ (r.nextWorker_carryOut ha).symm)

/-- A turn leaves the entries of the others' workers. -/
theorem Traffic.cached?_other (h : Traffic c₀ turns stages) {a : Act}
    (hst : (stages i).act? = some a) (hji : j ≠ i) :
    (stages j).cached? ((c₀.after turns).service.carryOut a).2.cache =
      (stages j).cached? (c₀.after turns).service.cache := by
  unfold Stage.cached?
  cases hw : (stages j).worker? with
  | none => rfl
  | some w =>
    exact Service.peek?_carryOut_other _ fun ha => hji (h.distinct hw (worker?_of_act? hst ha))

/-- The turn of a request that carries an act out. -/
theorem Traffic.turn (h : Traffic c₀ turns stages) {a : Act}
    (hact : (c₀.after turns).act? i = some a) (hst : (stages i).act? = some a) :
    Traffic c₀ (turns ++ [i])
      (Function.update stages i
        (plan.onward (stages i) a ((c₀.after turns).service.carryOut a).1)) := by
  have hservice : (c₀.after (turns ++ [i])).service = ((c₀.after turns).service.carryOut a).2 := by
    rw [after_concat, service_turn hact]
  refine ⟨?_, fun {j w} hj => ?_, fun {j k w} hj hk => ?_, fun j => ?_⟩ <;> try rw [hservice]
  · exact Service.mem_listeners_carryOut h.invalidates a
  · rcases worker?_update_cases hst hj with hold | ⟨-, rfl, rfl⟩
    · exact Nat.lt_of_lt_of_le (h.numbered hold) (le_nextWorker_carryOut _ a)
    · exact Nat.lt_succ_self _
  · rcases worker?_update_cases hst hj with holdj | ⟨rfl, rfl, rfl⟩
    · rcases worker?_update_cases hst hk with holdk | ⟨rfl, rfl, rfl⟩
      · exact h.distinct holdj holdk
      · exact absurd (h.numbered holdj) (Nat.lt_irrefl _)
    · rcases worker?_update_cases hst hk with holdk | ⟨rfl, -, -⟩
      · exact absurd (h.numbered holdk) (Nat.lt_irrefl _)
      · rfl
  · by_cases hji : j = i
    · subst hji
      rw [Function.update_self]
      exact story_turn rfl hact hst h.invalidates (h.story j)
    · rw [Function.update_of_ne hji, h.cached?_other hst hji]
      exact (h.story j).concat fun hij => absurd hij.symm hji

/-! ## All turns -/

/-- Requests at the moments they are handled at, on one service. -/
def ofRequests (r : Service β) (requests : List (Request × Instant)) : Concourse β Response :=
  ofCourses r (requests.map fun q => handle q.1 q.2)

/-- The first stages of requests. -/
def firstStages (requests : List (Request × Instant)) (i : Nat) : Stage :=
  (requests[i]?.map fun q => Stage.first q.1 q.2).getD (.replied (.bare 404))

omit [Backend β] in
theorem isAt_firstStages (r : Service β) (requests : List (Request × Instant)) :
    IsAt plan (ofRequests r requests) (firstStages requests) := by
  intro i course hcourse
  unfold ofRequests at hcourse
  rw [course?_ofCourses, List.getElem?_map] at hcourse
  obtain ⟨q, hq, rfl⟩ := Option.map_eq_some_iff.mp hcourse
  unfold firstStages
  rw [hq]
  exact follows_handle q.1 q.2

/-- A request comes without a worker. -/
theorem isNew_firstStages (requests : List (Request × Instant)) (i : Nat) :
    (∃ q now, firstStages requests i = .arrived q now) ∨
      (∃ q, firstStages requests i = .counting q) ∨
        ∃ answer, firstStages requests i = .replied answer := by
  unfold firstStages
  cases requests[i]? with
  | none => exact .inr (.inr ⟨_, rfl⟩)
  | some q =>
    dsimp only [Option.map_some, Option.getD_some]
    unfold Stage.first
    split
    · exact .inr (.inr ⟨_, rfl⟩)
    · split
      · exact .inr (.inr ⟨_, rfl⟩)
      · exact .inl ⟨_, _, rfl⟩
      · split
        · exact .inr (.inl ⟨_, rfl⟩)
        · exact .inr (.inr ⟨_, rfl⟩)
      · exact .inr (.inr ⟨_, rfl⟩)

theorem traffic_first {r : Service β} (hl : .invalidation ∈ r.listeners)
    (requests : List (Request × Instant)) :
    Traffic (ofRequests r requests) [] (firstStages requests) := by
  have hnone (i : Nat) : (firstStages requests i).worker? = none := by
    rcases isNew_firstStages requests i with ⟨q, now, h⟩ | ⟨q, h⟩ | ⟨answer, h⟩ <;>
      (rw [h]; rfl)
  have hunwritten (i : Nat) : (ofRequests r requests).Unwritten [] i := by
    intro before hprefix
    have hlength := hprefix.length_le
    simp at hlength
  refine ⟨hl, fun {i w} h => ?_, fun {i j w} h _ => ?_, fun i => ?_⟩
  · cases (hnone i).symm.trans h
  · cases (hnone i).symm.trans h
  · rcases isNew_firstStages requests i with ⟨q, now, h⟩ | ⟨q, h⟩ | ⟨answer, h⟩ <;>
      (rw [h]; exact hunwritten i)

/-- After all turns every request is at a stage of its own with its story. -/
theorem exists_traffic {r : Service β} (hl : .invalidation ∈ r.listeners)
    (requests : List (Request × Instant)) (turns : List Nat) :
    ∃ stages, IsAt plan ((ofRequests r requests).after turns) stages ∧
      Traffic (ofRequests r requests) turns stages ∧
        ∀ i, (stages i).subject? = (firstStages requests i).subject? := by
  refine exists_stages
    (I := fun turns stages => Traffic (ofRequests r requests) turns stages ∧
      ∀ i, (stages i).subject? = (firstStages requests i).subject?)
    (isAt_firstStages r requests) ⟨traffic_first hl requests, fun i => rfl⟩
    (fun hact h => ⟨h.1.idle hact, h.2⟩) ?_ turns
  intro turns stages i a hact hst h
  refine ⟨h.1.turn hact hst, fun j => ?_⟩
  by_cases hji : j = i
  · subst hji
    rw [Function.update_self]
    exact (subject?_onward hst _).trans (h.2 j)
  · rw [Function.update_of_ne hji]
    exact h.2 j

theorem firstStages_of_place {requests : List (Request × Instant)} {now : Instant}
    (hq : requests[i]? = some (q, now)) (hplace : Route.of? q.path = some .settings)
    (hmethod : q.method ≠ "OPTIONS") : firstStages requests i = .arrived q now := by
  unfold firstStages
  rw [hq]
  dsimp only [Option.map_some, Option.getD_some]
  unfold Stage.first
  rw [if_neg (by simpa using hmethod), hplace]

/-- What an answered request to the settings has come to. -/
theorem answers_of_answer? {r : Service β} (hl : .invalidation ∈ r.listeners)
    {requests : List (Request × Instant)} {now : Instant} (hq : requests[i]? = some (q, now))
    (hplace : Route.of? q.path = some .settings) (hmethod : q.method ≠ "OPTIONS")
    {response : Response}
    (hresponse : ((ofRequests r requests).after turns).answer? i = some response) :
    ∃ own answer, response = share (trim q answer) ∧
      Answers (ofRequests r requests) turns i q answer own := by
  obtain ⟨stages, hat, htraffic, hsubject⟩ := exists_traffic hl requests turns
  have hstage := hat.answer?_eq hresponse
  have hstory := htraffic.story i
  have hsubject : (stages i).subject? = some q := by
    rw [hsubject i, firstStages_of_place hq hplace hmethod]
    rfl
  cases hst : stages i with
  | answered v answer =>
    rw [hst] at hstage hsubject hstory
    cases hstage
    cases hsubject
    exact ⟨v.own, answer, rfl, hstory⟩
  | replied answer =>
    rw [hst] at hsubject
    cases hsubject
  | _ =>
    rw [hst] at hstage
    cases hstage

end Http
end ScopedSettings
