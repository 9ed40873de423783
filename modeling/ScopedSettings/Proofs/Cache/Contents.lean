/-
What the scope cache holds after a run: for each worker exactly the record its
last start was given, unless something has ended that since.

Entries are touched in five places (what a start discards and what it keeps,
the ends of units, the units that lose their name, and the invalidation of a
write), each through its course. What they amount to is one function of the
events of a run (`Event.entry`); a move does to a worker's entry what its
events say (`peek?_afterMove`), so a run does too, and of its events only the
last that concerns the worker matters (`foldl_entry`).
-/
import Mathlib.Data.List.Induction
import ScopedSettings.Proofs.Service.Programs
import ScopedSettings.Store.Memory

namespace ScopedSettings

/-! ## Events and entries -/

namespace Event

/-- Is this a start or an end of the worker's unit, or a write it has committed? -/
def concerns (w : WorkerId) : Event → Bool
  | .started v _ | .ended v | .written v _ _ (.ok _) => v == w
  | .read _ _ _ _ | .written _ _ _ (.error _) => false

/-- The last event that concerns a worker. -/
def last? (w : WorkerId) (es : List Event) : Option Event :=
  (es.filter (concerns w)).getLast?

/-- What an event leaves as the entry of the worker it concerns. -/
def left : Event → Option Settings
  | .started _ fetched => fetched
  | .ended _ | .read _ _ _ _ | .written _ _ _ _ => none

/-- What an event makes of a worker's entry. -/
def entry (w : WorkerId) (held : Option Settings) (e : Event) : Option Settings :=
  if e.concerns w then e.left else held

@[simp] theorem entry_started (w v : WorkerId) (held fetched : Option Settings) :
    entry w held (.started v fetched) = if v = w then fetched else held := by
  simp [entry, concerns, left]

@[simp] theorem entry_ended (w v : WorkerId) (held : Option Settings) :
    entry w held (.ended v) = if v = w then none else held := by
  simp [entry, concerns, left]

@[simp] theorem entry_read (w v : WorkerId) (held : Option Settings) (bypass : Bool)
    (source : Source) (answer : Except SettingsError Settings) :
    entry w held (.read v bypass source answer) = held := rfl

@[simp] theorem entry_committed (w v : WorkerId) (held : Option Settings) (u : Update)
    (now : Instant) (s : Settings) :
    entry w held (.written v u now (.ok s)) = if v = w then none else held := by
  simp [entry, concerns, left]

@[simp] theorem entry_failed (w v : WorkerId) (held : Option Settings) (u : Update)
    (now : Instant) (e : SettingsError) : entry w held (.written v u now (.error e)) = held := rfl

/-- Events that do not concern a worker leave its entry. -/
theorem foldl_entry_eq {w : WorkerId} {es : List Event} (h : ∀ e ∈ es, e.concerns w = false)
    (held : Option Settings) : es.foldl (entry w) held = held := by
  induction es generalizing held with
  | nil => rfl
  | cons e es ih =>
    have he : entry w held e = held := by simp [entry, h e List.mem_cons_self]
    rw [List.foldl_cons, he]
    exact ih (fun e he => h e (List.mem_cons_of_mem _ he)) held

/-- Of the events of a run only the last that concerns a worker matters to its entry. -/
theorem foldl_entry (w : WorkerId) (es : List Event) :
    es.foldl (entry w) none = (last? w es).bind left := by
  induction es using List.reverseRecOn with
  | nil => rfl
  | append_singleton es e ih =>
    rw [List.foldl_append, List.foldl_cons, List.foldl_nil, ih]
    unfold last?
    rw [List.filter_append]
    by_cases he : e.concerns w = true
    · simp [entry, he]
    · simp [entry, he]

/-- What remains of a worker's entry is a record exactly where the last event that
concerns the worker is a start that was given this record. -/
theorem bind_left_eq_some_iff (w : WorkerId) (es : List Event) (a : Settings) :
    (last? w es).bind left = some a ↔ last? w es = some (.started w (some a)) := by
  constructor
  · intro h
    obtain ⟨e, he, hleft⟩ := Option.bind_eq_some_iff.mp h
    have hc : e.concerns w = true := (List.mem_filter.mp (List.mem_of_getLast? he)).2
    cases e with
    | started v fetched =>
      have hv : v = w := by simpa [concerns] using hc
      have hf : fetched = some a := hleft
      rw [he, hv, hf]
    | ended v => simp [left] at hleft
    | read v bypass source answer => simp [left] at hleft
    | written v u now answer => simp [left] at hleft
  · intro h
    rw [h]
    rfl

end Event

/-! ## What moves do to an entry -/

namespace Service

variable {β : Type}

theorem peek?_tell_other (r : Service β) {e : WriteEvent} {w : WorkerId} (h : w ≠ e.writer)
    (l : Listener) : (r.tell e l).cache.peek? w = r.cache.peek? w := by
  cases l with
  | invalidation => exact ScopeCache.peek?_clear_other _ h
  | recorder name => rfl
  | growing name => rfl

theorem peek?_tell_none {r : Service β} {e : WriteEvent} (h : r.cache.peek? e.writer = none)
    (l : Listener) : (r.tell e l).cache.peek? e.writer = none := by
  cases l with
  | invalidation => exact ScopeCache.peek?_clear_self _ _
  | recorder name => exact h
  | growing name => exact h

/-- Listeners that are told of a write leave the entries of all but its writer. -/
theorem peek?_foldl_tell_other {e : WriteEvent} {w : WorkerId} (h : w ≠ e.writer)
    (ls : List Listener) (r : Service β) :
    (ls.foldl (tell e) r).cache.peek? w = r.cache.peek? w := by
  induction ls generalizing r with
  | nil => rfl
  | cons l ls ih => exact (ih (r.tell e l)).trans (r.peek?_tell_other h l)

theorem peek?_foldl_tell_none {e : WriteEvent} (ls : List Listener) {r : Service β}
    (h : r.cache.peek? e.writer = none) :
    (ls.foldl (tell e) r).cache.peek? e.writer = none := by
  induction ls generalizing r with
  | nil => exact h
  | cons l ls ih => exact ih (peek?_tell_none h l)

theorem peek?_foldl_tell_self {e : WriteEvent} {ls : List Listener} (h : .invalidation ∈ ls)
    (r : Service β) : (ls.foldl (tell e) r).cache.peek? e.writer = none := by
  induction ls generalizing r with
  | nil => simp at h
  | cons l ls ih =>
    rcases List.mem_cons.mp h with rfl | hl
    · exact peek?_foldl_tell_none ls (ScopeCache.peek?_clear_self _ _)
    · exact ih hl _

/-- A published write takes its writer's entry and no other, where the invalidation
listener is registered. -/
theorem peek?_published {r : Service β} (h : .invalidation ∈ r.listeners) (e : WriteEvent)
    (w : WorkerId) :
    (r.published e).cache.peek? w = if e.writer = w then none else r.cache.peek? w := by
  change (r.listeners.foldl (tell e) r).cache.peek? w = _
  split
  · rename_i hw
    subst hw
    exact peek?_foldl_tell_self h r
  · rename_i hw
    exact peek?_foldl_tell_other (Ne.symm hw) r.listeners r

theorem mem_listeners_foldl_tell {l : Listener} {e : WriteEvent} (ls : List Listener)
    {r : Service β} (h : l ∈ r.listeners) : l ∈ (ls.foldl (tell e) r).listeners := by
  induction ls generalizing r with
  | nil => exact h
  | cons k ls ih =>
    refine ih ?_
    cases k with
    | invalidation => exact h
    | recorder name => exact h
    | growing name => exact List.mem_append_left _ h

variable [Backend β]

theorem peek?_started (r : Service β) (w v : WorkerId) (fetched : Option Settings) :
    (r.started w fetched).cache.peek? v = Event.entry v (r.cache.peek? v) (.started w fetched) := by
  rw [Event.entry_started]
  by_cases hw : w = v
  · subst hw
    cases fetched <;> simp [started]
  · cases fetched <;> simp [started, hw, Ne.symm hw]

end Service

namespace Session

variable {β ξ : Type}

theorem peek?_finished (s : Session β) (w v : WorkerId) :
    (s.finished w).service.cache.peek? v =
      Event.entry v (s.service.cache.peek? v) (.ended w) := by
  rw [Event.entry_ended]
  by_cases hw : w = v
  · subst hw
    simp [finished]
  · simp [finished, hw, Ne.symm hw]

/-- Closing the unit of a name does to entries what its events say. -/
theorem peek?_closed (s : Session β) (name : String) (w : WorkerId) :
    (s.closed name).service.cache.peek? w =
      (s.closing name).foldl (Event.entry w) (s.service.cache.peek? w) := by
  unfold closed closing
  cases s.unit? name with
  | none => rfl
  | some v => exact peek?_finished _ v w

theorem peek?_begun (s : Session β) (v : WorkerId) (name : String) (w : WorkerId) :
    (s.begun v name).service.cache.peek? w =
      (s.closing name).foldl (Event.entry w) (s.service.cache.peek? w) := by
  unfold begun closing
  cases s.unit? name with
  | none => rfl
  | some v => exact peek?_finished _ v w

end Session

namespace Service

variable {β : Type} [Backend β]

/-- Reads leave every entry. -/
theorem peek?_perform_get (v : WorkerId) (bypass : Bool) (patience : Option Duration)
    (r : Service β) (w : WorkerId) :
    (r.perform (Course.get v bypass) patience).2.cache.peek? w = r.cache.peek? w := by
  cases bypass with
  | true =>
    rw [perform_get_bypass]
    rfl
  | false =>
    cases h : r.cache.peek? v with
    | some s =>
      rw [perform_get_hit h]
      exact r.cache.peek?_get w v
    | none =>
      rw [perform_get_miss h]
      exact r.cache.peek?_get w v

theorem listeners_perform_get (v : WorkerId) (bypass : Bool) (patience : Option Duration)
    (r : Service β) :
    (r.perform (Course.get v bypass) patience).2.listeners = r.listeners := by
  cases bypass with
  | true =>
    rw [perform_get_bypass]
    rfl
  | false =>
    cases h : r.cache.peek? v with
    | some s =>
      rw [perform_get_hit h]
    | none =>
      rw [perform_get_miss h]
      rfl

/-- Listeners stay registered through a write. -/
theorem mem_listeners_perform_write {l : Listener} {r : Service β} (h : l ∈ r.listeners)
    (v : WorkerId) (u : Update) (now : Instant) (patience : Option Duration) :
    l ∈ (r.perform (Course.write v u now) patience).2.listeners := by
  cases hv : u.validate with
  | error e =>
    rw [perform_write_refused hv]
    exact h
  | ok _ =>
    rw [perform_write_accepted hv]
    unfold written
    split
    · exact mem_listeners_foldl_tell r.listeners h
    · exact h

end Service

namespace Session

variable {β ξ : Type}

theorem listeners_closed (s : Session β) (name : String) :
    (s.closed name).service.listeners = s.service.listeners := by
  unfold closed
  split <;> rfl

theorem listeners_begun (s : Session β) (w : WorkerId) (name : String) :
    (s.begun w name).service.listeners = s.service.listeners := by
  unfold begun
  split <;> rfl

variable [Backend β]

/-- Listeners stay registered. -/
theorem mem_listeners_perform {l : Listener} {s : Session β} (h : l ∈ s.service.listeners)
    (patience : Option Duration) (o : Operation) :
    l ∈ ((perform patience o).alone s).2.service.listeners := by
  cases o with
  | get v bypass =>
    rw [perform_get, withService_service, Service.listeners_perform_get]
    exact h
  | fetch =>
    rw [perform_fetch]
    exact h
  | write v u now =>
    rw [perform_write]
    exact Service.mem_listeners_perform_write h _ u now patience
  | start v =>
    rw [perform_start]
    exact h
  | succeed v =>
    rw [perform_succeed]
    exact h
  | fail v =>
    rw [perform_fail]
    exact h
  | begin v name =>
    change l ∈ ((beginUnit v name patience).alone s).2.service.listeners
    rw [beginUnit_alone]
    split
    · exact h
    · rw [listeners_begun]
      exact h
  | succeedUnit name | failUnit name | dropUnit name =>
    change l ∈ ((endUnit name patience).alone s).2.service.listeners
    rw [endUnit_alone, listeners_closed]
    exact h

theorem mem_listeners_afterMove {l : Listener} (change : ξ → β → β) {s : Session β}
    (h : l ∈ s.service.listeners) (m : Move ξ) : l ∈ (s.afterMove change m).service.listeners := by
  cases m with
  | use patience o => exact mem_listeners_perform h patience o
  | enter w => exact h
  | leave => exact h
  | register k => exact List.mem_append_left _ h
  | outside x => exact h

/-- An operation does to a worker's entry what its events say. -/
theorem peek?_perform {s : Session β} (h : .invalidation ∈ s.service.listeners)
    (patience : Option Duration) (o : Operation) (w : WorkerId) :
    ((perform patience o).alone s).2.service.cache.peek? w =
      (s.eventsOf patience o).foldl (Event.entry w) (s.service.cache.peek? w) := by
  unfold eventsOf
  cases o with
  | get v bypass =>
    rw [perform_get]
    dsimp only
    rw [withService_service, Service.peek?_perform_get]
    cases (s.service.perform (Course.get (v.getD s.current) bypass) patience).1 <;> rfl
  | fetch =>
    rw [perform_fetch]
    rfl
  | write v u now =>
    rw [perform_write]
    dsimp only
    rw [withService_service]
    cases hv : u.validate with
    | error e =>
      rw [Service.perform_write_refused hv]
      rfl
    | ok _ =>
      rw [Service.perform_write_accepted hv]
      cases s.service.committing u now patience with
      | none => rfl
      | some x =>
        obtain ⟨answer, p⟩ := x
        cases answer with
        | error e => rfl
        | ok a =>
          dsimp only [Service.written, Option.map_some]
          have hl : .invalidation ∈ (s.service.committed u now).listeners := h
          refine (Service.peek?_published hl (Service.eventOf (v.getD s.current) a now) w).trans ?_
          exact (Event.entry_committed _ _ _ u now a).symm
  | start v =>
    rw [perform_start]
    exact Service.peek?_started s.service v w (s.fetched? patience)
  | succeed v =>
    rw [perform_succeed]
    exact peek?_finished s v w
  | fail v =>
    rw [perform_fail]
    exact peek?_finished s v w
  | begin v name =>
    rw [perform_begin, beginUnit_alone]
    cases s.service.fetching patience with
    | none => exact Service.peek?_started s.service v w none
    | some x =>
      refine (peek?_begun _ v name w).trans ?_
      rw [withService_service, Service.peek?_started]
      rfl
  | succeedUnit name | failUnit name | dropUnit name =>
    change ((endUnit name patience).alone s).2.service.cache.peek? w = _
    rw [endUnit_alone]
    exact peek?_closed s name w

/-- A move does to a worker's entry what its events say. -/
theorem peek?_afterMove (change : ξ → β → β) {s : Session β}
    (h : .invalidation ∈ s.service.listeners) (m : Move ξ) (w : WorkerId) :
    (s.afterMove change m).service.cache.peek? w =
      (s.events m).foldl (Event.entry w) (s.service.cache.peek? w) := by
  cases m with
  | use patience o => exact peek?_perform h patience o w
  | enter v => rfl
  | leave => rfl
  | register l => rfl
  | outside x => rfl

theorem mem_listeners_after {l : Listener} (change : ξ → β → β) {s : Session β}
    (h : l ∈ s.service.listeners) (ms : List (Move ξ)) :
    l ∈ (s.after change ms).service.listeners := by
  induction ms generalizing s with
  | nil => exact h
  | cons m ms ih => exact ih (mem_listeners_afterMove change h m)

/-- A run does to a worker's entry what its chronicle says. -/
theorem peek?_after (change : ξ → β → β) {s : Session β}
    (h : .invalidation ∈ s.service.listeners) (ms : List (Move ξ)) (w : WorkerId) :
    (s.after change ms).service.cache.peek? w =
      (s.chronicle change ms).foldl (Event.entry w) (s.service.cache.peek? w) := by
  induction ms generalizing s with
  | nil => rfl
  | cons m ms ih =>
    rw [chronicle, List.foldl_append, ← peek?_afterMove change h m w]
    exact ih (mem_listeners_afterMove change h m)

end Session

/-! ## Runs from an empty cache -/

namespace Session

variable {β ξ : Type} [Backend β]

/-- The cache holds a worker's entry after a run exactly if the last event of the run
that concerns the worker is a start that was given a record, and then it holds this
record; a move that does not concern the worker leaves what there is. -/
theorem peek?_runs_iff (change : ξ → β → β) {backend : β} {config : Config} {r : Service β}
    (hr : Service.ofBackend backend config = .ok r) (thread : WorkerId) {ms : List (Move ξ)}
    {s : Session β} (hs : Runs change (opened r thread) ms s) (w : WorkerId) :
    (∀ a, s.service.cache.peek? w = some a ↔
      Event.last? w ((opened r thread).chronicle change ms) = some (.started w (some a))) ∧
    ∀ m, (∀ e ∈ s.events m, e.concerns w = false) →
      (s.afterMove change m).service.cache.peek? w = s.service.cache.peek? w := by
  have hlisteners : .invalidation ∈ (opened r thread).service.listeners := by
    rw [Service.eq_of_ofBackend hr]
    exact List.mem_singleton_self _
  have hempty : (opened r thread).service.cache.peek? w = none := by
    rw [Service.eq_of_ofBackend hr]
    rfl
  rw [hs.eq_after]
  constructor
  · intro a
    rw [peek?_after change hlisteners, hempty, Event.foldl_entry, Event.bind_left_eq_some_iff]
  · intro m hm
    rw [peek?_afterMove change (mem_listeners_after change hlisteners ms)]
    exact Event.foldl_entry_eq hm _

/-- Two workers start; the snapshot of the first outlives the write of the second. -/
theorem peek?_runs_iff_kept :
    ∃ r, Service.ofBackend ({ record := some .default } : MemoryStore) {} = .ok r ∧
      ((opened r ⟨0⟩).after (fun (_ : Unit) b => b) [
          .use none (.start ⟨1⟩), .use none (.start ⟨2⟩),
          .use none (.write (some ⟨2⟩) { enableJira := some true }
            ⟨⟨⟨1970, 1, 1, by decide⟩, 0, 0, by decide⟩, by decide⟩)]).service.cache.peek? ⟨1⟩ =
        some .default := by
  have hr : Service.ofBackend ({ record := some .default } : MemoryStore) {} = .ok _ := rfl
  refine ⟨_, hr, ?_⟩
  refine ((peek?_runs_iff (fun (_ : Unit) b => b) hr ⟨0⟩ (.moves _) ⟨1⟩).1 .default).mpr ?_
  simp only [chronicle, events, eventsOf, afterMove, move, perform_start, perform_write]
  rfl

end Session
end ScopedSettings
