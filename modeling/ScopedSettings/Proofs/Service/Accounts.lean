/-
The chronicle of a session accounts for its record and its entries.

`Event.Accounts` is about lists of events alone: each event is one that may
happen while what is stored and the entries are what the events before it have left
(`Event.Agrees`, `Event.Leaves`, `Event.entry`), under conditions that the store is known
to meet. Moves of a session on a store that keeps its record account for what they change
(`Session.accountsFor_move`), so a run does (`Session.accountsFor_after`), and what follows
from a chronicle can be shown of lists of events without looking into the service again.
-/
import ScopedSettings.Proofs.Cache.Contents
import ScopedSettings.Proofs.Store.KeptRecord

namespace ScopedSettings

namespace Event

/-- May an event happen while this is stored, and these are the entries? -/
def Agrees (st : Stored) (held : WorkerId → Option Settings) : Event → Prop
  | .started _ fetched => ∀ s, fetched = some s → st = .record s
  | .read w bypass .entry answer => bypass = false ∧ ∃ s, held w = some s ∧ answer = .ok s
  | .read w bypass .store answer =>
    (bypass = false → held w = none) ∧ ∀ s, answer = .ok s → st = .record s
  | .ended _ | .read _ _ .defaults _ | .written _ _ _ _ => True

/-- What an event can leave: a write leaves what its commit does. -/
def Leaves (c : Conditions) (before after : Stored) : Event → Prop
  | .written _ u now answer => c.Commits u now before after answer
  | .started _ _ | .ended _ | .read _ _ _ _ => after = before

/-- Events that account for what is stored, from what is stored and the entries before
them. -/
inductive Accounts (c : Conditions) :
    Stored → (WorkerId → Option Settings) → List Event → Stored → Prop
  | nil {st : Stored} {held : WorkerId → Option Settings} : Accounts c st held [] st
  | cons {before after last : Stored} {held : WorkerId → Option Settings} {e : Event}
    {es : List Event} (hagrees : e.Agrees before held) (hleaves : e.Leaves c before after)
    (hcounts : before.CountsUp after)
    (hrest : Accounts c after (fun w => entry w (held w) e) es last) :
    Accounts c before held (e :: es) last

namespace Accounts

variable {c : Conditions} {before after last : Stored} {held : WorkerId → Option Settings}
  {e : Event} {es es' : List Event}

theorem single (hagrees : e.Agrees before held) (hleaves : e.Leaves c before after)
    (hcounts : before.CountsUp after) : Accounts c before held [e] after :=
  .cons hagrees hleaves hcounts .nil

theorem append (h : Accounts c before held es after)
    (h' : Accounts c after (fun w => es.foldl (entry w) (held w)) es' last) :
    Accounts c before held (es ++ es') last := by
  induction h with
  | nil => exact h'
  | cons hagrees hleaves hcounts _ ih => exact .cons hagrees hleaves hcounts (ih h')

/-- Events in a row account for what is stored between them. -/
theorem split (h : Accounts c before held (es ++ es') last) :
    ∃ mid, Accounts c before held es mid ∧
      Accounts c mid (fun w => es.foldl (entry w) (held w)) es' last := by
  induction es generalizing before held with
  | nil => exact ⟨before, .nil, h⟩
  | cons e es ih =>
    cases h with
    | cons hagrees hleaves hcounts hrest =>
      obtain ⟨mid, hfirst, hsecond⟩ := ih hrest
      exact ⟨mid, .cons hagrees hleaves hcounts hfirst, hsecond⟩

end Accounts
end Event

/-! ## Reads -/

namespace Session

variable {c : Conditions}

/-- Where the record of an answer came from, if no entry was found. -/
def sourceOf : Except SettingsError Settings → Source
  | .error e => if e.isNotReady then .defaults else .store
  | .ok _ => .store

theorem agrees_read {st : Stored} {held : WorkerId → Option Settings} {w : WorkerId}
    {bypass : Bool} {answer : Except SettingsError Settings}
    (hheld : bypass = false → held w = none) (hanswer : ∀ s, answer = .ok s → st = .record s) :
    Event.Agrees st held (.read w bypass (sourceOf answer) (Course.orDefault answer)) := by
  cases answer with
  | ok s => exact ⟨hheld, fun s' hs' => hanswer s' hs'⟩
  | error e =>
    cases h : e.isNotReady with
    | true =>
      have hsource : sourceOf (.error e) = .defaults := by simp [sourceOf, h]
      rw [hsource]
      trivial
    | false =>
      have hsource : sourceOf (.error e) = .store := by simp [sourceOf, h]
      have horDefault : Course.orDefault (.error e) = .error e := by simp [Course.orDefault, h]
      rw [hsource, horDefault]
      refine ⟨hheld, ?_⟩
      intro s hs
      cases hs

/-- A read without a fitting entry asks the store for its record. -/
theorem source_eq_sourceOf (s : Session RecordStore) {w : WorkerId} {bypass : Bool}
    (hmiss : bypass = false → s.service.cache.peek? w = none)
    {answer : Except SettingsError Settings} {patience : Option Duration}
    (hfetch : s.service.fetching patience = some (answer, patience)) :
    s.source w bypass patience = sourceOf answer := by
  have hentry : (!bypass && s.service.cache.contains w) = false := by
    cases bypass with
    | true => rfl
    | false => simp [ScopeCache.contains, hmiss rfl]
  have hperform : (s.service.perform Course.fetch patience).1 = some (answer, patience) := hfetch
  unfold source
  rw [hentry, hperform]
  cases answer <;> rfl

/-! ## Moves -/

/-- What is held of each worker's record. -/
def held (s : Session RecordStore) : WorkerId → Option Settings :=
  s.service.cache.peek?

/-- Does no write of a run take the version of the record past what sixty-four bits hold? -/
def VersionsFit (s : Session RecordStore) : List (Move Bool) → Prop
  | [] => True
  | m :: ms =>
    s.service.backend.stored.CountsUp (s.afterMove RecordStore.switch m).service.backend.stored ∧
      (s.afterMove RecordStore.switch m).VersionsFit ms

theorem VersionsFit.left {s : Session RecordStore} {ms ms' : List (Move Bool)}
    (h : s.VersionsFit (ms ++ ms')) : s.VersionsFit ms := by
  induction ms generalizing s with
  | nil => trivial
  | cons m ms ih => exact ⟨h.1, ih h.2⟩

theorem VersionsFit.right {s : Session RecordStore} {ms ms' : List (Move Bool)}
    (h : s.VersionsFit (ms ++ ms')) : (s.after RecordStore.switch ms).VersionsFit ms' := by
  induction ms generalizing s with
  | nil => exact h
  | cons m ms ih => exact ih h.2

/-- Events account for what is made of the record; the store goes on keeping it, and meets the
conditions that it has met. -/
structure AccountsFor (c : Conditions) (s s' : Session RecordStore) (es : List Event) : Prop where
  accounts : Event.Accounts c s.service.backend.stored s.held es s'.service.backend.stored
  isKept : s'.service.backend.IsKept
  conditions : s'.service.backend.conditions.Meets s.service.backend.conditions

/-- The record does not follow itself. -/
theorem countsUp_self (st : Stored) : st.CountsUp st := by
  cases st with
  | record s => exact fun h => absurd rfl h
  | nothing | unreadable => trivial

/-- A move without events of its own that leaves the store as a load does. -/
theorem accountsFor_follows {s s' : Session RecordStore} {es : List Event}
    (hfollows : RecordStore.Follows s.service.backend s'.service.backend)
    (h : Event.Accounts c s.service.backend.stored s.held es s.service.backend.stored) :
    AccountsFor c s s' es where
  accounts := by
    rw [hfollows.stored_eq]
    exact h
  isKept := hfollows.isKept
  conditions := hfollows.conditions

variable {s : Session RecordStore}

theorem accountsFor_get (h : s.service.backend.IsKept) (v : Option WorkerId) (bypass : Bool)
    (patience : Option Duration) :
    AccountsFor c s ((perform patience (.get v bypass)).alone s).2
      (s.eventsOf patience (.get v bypass)) := by
  obtain ⟨hfollows, answer, hreply, hanswer⟩ := RecordStore.load_spec h
  have hfetch := Service.fetching_of_now hreply patience
  unfold eventsOf
  rw [perform_get]
  dsimp only
  by_cases hmiss : bypass = false → s.service.cache.peek? (v.getD s.current) = none
  · -- the store is asked, and an entry that is there is not looked at
    have hperform : (s.service.perform (Course.get (v.getD s.current) bypass) patience).1 =
          some (Course.orDefault answer, patience) ∧
        (s.service.perform (Course.get (v.getD s.current) bypass) patience).2.backend =
          s.service.loaded.backend := by
      cases bypass with
      | true =>
        rw [Service.perform_get_bypass, hfetch]
        exact ⟨rfl, rfl⟩
      | false =>
        rw [Service.perform_get_miss (hmiss rfl), hfetch]
        exact ⟨rfl, rfl⟩
    rw [hperform.1]
    refine accountsFor_follows ?_ (.single ?_ rfl (countsUp_self _))
    · rw [withService_service, hperform.2]
      exact hfollows
    · rw [s.source_eq_sourceOf hmiss hfetch]
      exact agrees_read hmiss hanswer
  · obtain ⟨rfl, hhit⟩ : bypass = false ∧ s.service.cache.peek? (v.getD s.current) ≠ none := by
      simpa using hmiss
    obtain ⟨a, ha⟩ := Option.ne_none_iff_exists'.mp hhit
    rw [Service.perform_get_hit ha]
    refine accountsFor_follows (.refl h) (.single ?_ rfl (countsUp_self _))
    have hsource : s.source (v.getD s.current) false patience = .entry := by
      simp [source, ScopeCache.contains, ha]
    rw [hsource]
    exact ⟨rfl, a, ha, rfl⟩

/-- A write that is accepted and answered at once leaves the store as the commit does. -/
theorem write_of_now {u : Update} (hv : u.validate = .ok ()) {now : Instant}
    {answer : Except SettingsError Settings}
    (hreply : (Backend.commit s.service.backend u now).2 = .now answer) (v : Option WorkerId)
    (patience : Option Duration) :
    s.eventsOf patience (.write v u now) = [.written (v.getD s.current) u now answer] ∧
      ((perform patience (.write v u now)).alone s).2.service.backend =
        (Backend.commit s.service.backend u now).1 := by
  have hcommit := Service.committing_of_now hreply patience
  unfold eventsOf
  rw [perform_write, Service.perform_write_accepted hv, hcommit]
  cases answer with
  | error e => exact ⟨rfl, rfl⟩
  | ok a => exact ⟨rfl, Service.backend_notify _ _⟩

/-- A write is one event, and leaves the store as its commit does. -/
theorem exists_written (h : s.service.backend.IsKept) (v : Option WorkerId) (u : Update)
    (now : Instant) (patience : Option Duration) :
    ∃ answer, s.eventsOf patience (.write v u now) = [.written (v.getD s.current) u now answer] ∧
      RecordStore.Committed s.service.backend
        ((perform patience (.write v u now)).alone s).2.service.backend u now answer := by
  cases hv : u.validate with
  | error e =>
    refine ⟨.error e, ?_⟩
    unfold eventsOf
    rw [perform_write, Service.perform_write_refused hv]
    exact ⟨rfl, RecordStore.committed_refused h hv now⟩
  | ok _ =>
    obtain ⟨answer, hreply, hcommitted⟩ := RecordStore.commit_spec h u now
    obtain ⟨hevents, hbackend⟩ := write_of_now hv hreply v patience
    rw [← hbackend] at hcommitted
    exact ⟨answer, hevents, hcommitted⟩

theorem accountsFor_write (h : s.service.backend.IsKept) (hc : s.service.backend.conditions.Meets c)
    (v : Option WorkerId) (u : Update) (now : Instant) (patience : Option Duration)
    (hcounts : s.service.backend.stored.CountsUp
      ((perform patience (.write v u now)).alone s).2.service.backend.stored) :
    AccountsFor c s ((perform patience (.write v u now)).alone s).2
      (s.eventsOf patience (.write v u now)) := by
  obtain ⟨answer, hevents, hcommitted⟩ := exists_written h v u now patience
  rw [hevents]
  exact ⟨.single trivial (hcommitted.commits.of_meets hc) hcounts, hcommitted.isKept,
    hcommitted.conditions⟩

/-- The record a start is given is the one that is kept. -/
theorem agrees_started (h : s.service.backend.IsKept) (held : WorkerId → Option Settings)
    (w : WorkerId) (patience : Option Duration) :
    Event.Agrees s.service.backend.stored held (.started w (s.fetched? patience)) := by
  obtain ⟨-, answer, hreply, hanswer⟩ := RecordStore.load_spec h
  have hfetch := Service.fetching_of_now hreply patience
  intro a ha
  refine hanswer a ?_
  have hfetched : s.fetched? patience = answer.toOption := by
    change (s.service.fetching patience).bind (fun x => x.1.toOption) = _
    rw [hfetch]
    rfl
  rw [hfetched] at ha
  cases answer with
  | error e => cases ha
  | ok b =>
    cases ha
    rfl

theorem accounts_closing (s : Session RecordStore) (name : String) (st : Stored)
    (held : WorkerId → Option Settings) : Event.Accounts c st held (s.closing name) st := by
  unfold closing
  cases s.unit? name with
  | none => exact .nil
  | some v => exact .single trivial rfl (countsUp_self _)

/-- An operation's events account for what it makes of the record. -/
theorem accountsFor_perform (h : s.service.backend.IsKept)
    (hc : s.service.backend.conditions.Meets c)
    (patience : Option Duration) (o : Operation)
    (hcounts : s.service.backend.stored.CountsUp
      ((perform patience o).alone s).2.service.backend.stored) :
    AccountsFor c s ((perform patience o).alone s).2 (s.eventsOf patience o) := by
  obtain ⟨hload, answer, hreply, -⟩ := RecordStore.load_spec h
  have hfetch := Service.fetching_of_now hreply patience
  cases o with
  | get v bypass => exact accountsFor_get h v bypass patience
  | write v u now => exact accountsFor_write h hc v u now patience hcounts
  | fetch =>
    unfold eventsOf
    rw [perform_fetch]
    exact accountsFor_follows hload .nil
  | start v =>
    unfold eventsOf
    rw [perform_start]
    exact accountsFor_follows hload
      (.single (agrees_started h s.held v patience) rfl (countsUp_self _))
  | succeed v =>
    unfold eventsOf
    rw [perform_succeed]
    exact accountsFor_follows (.refl h) (.single trivial rfl (countsUp_self _))
  | fail v =>
    unfold eventsOf
    rw [perform_fail]
    exact accountsFor_follows (.refl h) (.single trivial rfl (countsUp_self _))
  | begin v name =>
    unfold eventsOf
    rw [perform_begin, beginUnit_alone, hfetch]
    refine accountsFor_follows ?_
      (.cons (agrees_started h s.held v patience) rfl (countsUp_self _) ?_)
    · dsimp only
      rw [backend_begun]
      exact hload
    · exact accounts_closing s name _ _
  | succeedUnit name | failUnit name | dropUnit name =>
    unfold eventsOf
    refine accountsFor_follows ?_ (accounts_closing s name _ _)
    change RecordStore.Follows _ ((endUnit name patience).alone s).2.service.backend
    rw [endUnit_alone]
    dsimp only
    rw [backend_closed]
    exact .refl h

/-- A move's events account for what it makes of the record. -/
theorem accountsFor_move (h : s.service.backend.IsKept) (hc : s.service.backend.conditions.Meets c)
    (m : Move Bool) (hcounts : s.service.backend.stored.CountsUp
      (s.afterMove RecordStore.switch m).service.backend.stored) :
    AccountsFor c s (s.afterMove RecordStore.switch m) (s.events m) := by
  cases m with
  | use patience o => exact accountsFor_perform h hc patience o hcounts
  | enter w => exact accountsFor_follows (.refl h) .nil
  | leave => exact accountsFor_follows (.refl h) .nil
  | register l => exact accountsFor_follows (.refl h) .nil
  | outside on => exact accountsFor_follows (RecordStore.follows_switch h on) .nil

/-- The chronicle of a run accounts for what the run makes of the record. -/
theorem accountsFor_after (h : s.service.backend.IsKept)
    (hlisteners : .invalidation ∈ s.service.listeners) (hc : s.service.backend.conditions.Meets c)
    {ms : List (Move Bool)} (hfit : s.VersionsFit ms) :
    AccountsFor c s (s.after RecordStore.switch ms) (s.chronicle RecordStore.switch ms) := by
  induction ms generalizing s with
  | nil => exact accountsFor_follows (.refl h) .nil
  | cons m ms ih =>
    have hmove := accountsFor_move h hc m hfit.1
    have hentries : (s.afterMove RecordStore.switch m).held =
        fun w => (s.events m).foldl (Event.entry w) (s.held w) :=
      funext (peek?_afterMove RecordStore.switch hlisteners m)
    obtain ⟨haccounts, hkept, hconditions⟩ := ih hmove.isKept
      (mem_listeners_afterMove RecordStore.switch hlisteners m)
      (hmove.conditions.trans hc) hfit.2
    rw [hentries] at haccounts
    exact ⟨hmove.accounts.append haccounts, hkept, hconditions.trans hmove.conditions⟩

end Session
end ScopedSettings
