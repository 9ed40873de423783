/-
A worker's reads never go back, neither before what the worker has read nor
before what it has written.

Reads are answered from two places: the worker's entry, which may be older than
the record, and the record itself. The invariant is a floor under both
(`Event.Floor`). What a worker reads or writes becomes one, since its entry is
never ahead of the record (`Event.Within`) and a committed write of its own
drops the entry; and events raise the record or leave it, so a floor stays.
What a store expects of its surroundings does not matter here: an entry has been given a
record, and a record that is there stays, or comes to be one that cannot be read. That a
directory can be flushed is known after a committed write, for it has been.
-/
import ScopedSettings.Proofs.Service.WriteHistory

namespace ScopedSettings

namespace Event

/-- What a read of a worker that does not bypass the entries has answered, unless it was
the defaults. -/
def read? (w : WorkerId) : Event → Option Settings
  | .read v false .entry (.ok a) | .read v false .store (.ok a) => if v = w then some a else none
  | _ => none

/-- What the reads of a worker have answered, in order. -/
def reads (w : WorkerId) (es : List Event) : List Settings :=
  es.filterMap (read? w)

/-- Is a record stored, of a version at least? Where it may be, it may be unreadable. -/
def AtLeast (c : Conditions) (n : UInt64) : Stored → Prop
  | .nothing => False
  | .unreadable => ¬c.fit
  | .record s => n ≤ s.version

/-- Is the given record stored, unless what is stored cannot be read? -/
def Only (s : Settings) : Stored → Prop
  | .nothing => False
  | .unreadable => True
  | .record a => a = s

/-- What is stored and an entry, if there is one, are of a version at least. -/
structure Floor (c : Conditions) (n : UInt64) (st : Stored) (held : Option Settings) : Prop where
  stored : AtLeast c n st
  held : ∀ a, held = some a → n ≤ a.version

/-- An entry is not ahead of the record. -/
def Within (c : Conditions) (st : Stored) (held : Option Settings) : Prop :=
  ∀ a, held = some a → AtLeast c a.version st

/-- What is stored is the given record, and an entry, if there is one, is too. -/
structure Fixed (s : Settings) (st : Stored) (held : Option Settings) : Prop where
  stored : Only s st
  held : ∀ a, held = some a → a = s

/-! ## One event -/

variable {c : Conditions} {before after last : Stored} {held : WorkerId → Option Settings}
  {w : WorkerId} {e : Event} {es : List Event}

theorem AtLeast.trans {n m : UInt64} {st : Stored} (h : AtLeast c m st) (hle : n ≤ m) :
    AtLeast c n st := by
  cases st with
  | nothing => exact h
  | unreadable => exact h
  | record s => exact UInt64.le_trans hle h

theorem only_of_holds {s : Settings} {st : Stored} (h : c.Holds s st) : Only s st := by
  cases h with
  | record => rfl
  | unreadable _ => trivial

theorem atLeast_of_holds {s : Settings} {st : Stored} (h : c.Holds s st) :
    AtLeast c s.version st := by
  cases h with
  | record => exact UInt64.le_refl _
  | unreadable hfit => exact hfit

theorem AtLeast.of_holds {n : UInt64} {u : Update} {now : Instant} {base : Settings}
    (h : AtLeast c n before) (hbase : before.base? = some base)
    (hafter : c.Holds (u.apply base now) after) (hcounts : before.CountsUp after) :
    AtLeast c n after := by
  cases hafter with
  | unreadable hfit => exact hfit
  | record =>
    cases before with
    | nothing => exact h.elim
    | unreadable => cases hbase
    | record s =>
      cases hbase
      exact UInt64.le_trans h (Update.le_version_apply (version_ne_zero hcounts))

/-- A record that is there stays, or one of a later version takes its place. -/
theorem Leaves.atLeast {n : UInt64} (hleaves : e.Leaves c before after)
    (hcounts : before.CountsUp after) (h : AtLeast c n before) : AtLeast c n after := by
  cases e with
  | started w fetched | ended w | read w bypass source answer =>
    obtain rfl : after = before := hleaves
    exact h
  | written w u now answer =>
    cases hleaves with
    | done hbase hafter => exact h.of_holds hbase hafter hcounts
    | unflushed _ _ hbase hafter => exact h.of_holds hbase hafter hcounts
    | failed _ hafter =>
      cases hafter with
      | same => exact h
      | obstructed => exact h.elim
      | uncovered _ => exact h.elim
      | cut hfit => exact hfit
      | written _ _ => exact h.of_holds rfl .record hcounts

/-- An entry is what it was, or the record. -/
theorem Agrees.entry_cases (h : e.Agrees before held) {a : Settings}
    (ha : entry w (held w) e = some a) : held w = some a ∨ before = .record a := by
  cases e with
  | started v fetched =>
    rw [entry_started] at ha
    split at ha
    · exact .inr (h a ha)
    · exact .inl ha
  | ended v =>
    rw [entry_ended] at ha
    split at ha
    · cases ha
    · exact .inl ha
  | read v bypass source answer => exact .inl ha
  | written v u now answer =>
    cases answer with
    | error f => exact .inl ha
    | ok s =>
      rw [entry_committed] at ha
      split at ha
      · cases ha
      · exact .inl ha

/-- What is read is the entry, or without an entry the record. -/
theorem Agrees.read_cases (h : e.Agrees before held) {a : Settings} (ha : read? w e = some a) :
    held w = some a ∨ held w = none ∧ before = .record a := by
  unfold read? at ha
  split at ha
  · rename_i v b
    obtain ⟨-, s, hs, hanswer⟩ := h
    split at ha
    · rename_i hv
      subst hv
      cases hanswer
      cases ha
      exact .inl hs
    · cases ha
  · rename_i v b
    obtain ⟨hmiss, hanswer⟩ := h
    split at ha
    · rename_i hv
      subst hv
      cases ha
      exact .inr ⟨hmiss rfl, hanswer a rfl⟩
    · cases ha
  · cases ha

/-- What is read is a floor. -/
theorem Within.floor_of_read (hwithin : Within c before (held w)) (h : e.Agrees before held)
    {a : Settings} (ha : read? w e = some a) : Floor c a.version before (held w) := by
  rcases h.read_cases ha with hheld | ⟨hnone, rfl⟩
  · refine ⟨hwithin a hheld, ?_⟩
    intro b hb
    obtain rfl : a = b := by simpa [hheld] using hb
    exact UInt64.le_refl _
  · refine ⟨UInt64.le_refl _, ?_⟩
    intro b hb
    rw [hnone] at hb
    cases hb

/-- What is read is not below a floor. -/
theorem Floor.le_of_read {n : UInt64} (hfloor : Floor c n before (held w))
    (h : e.Agrees before held)
    {a : Settings} (ha : read? w e = some a) : n ≤ a.version := by
  rcases h.read_cases ha with hheld | ⟨-, rfl⟩
  · exact hfloor.held a hheld
  · exact hfloor.stored

theorem Within.step (h : Within c before (held w)) (hagrees : e.Agrees before held)
    (hleaves : e.Leaves c before after) (hcounts : before.CountsUp after) :
    Within c after (entry w (held w) e) := by
  intro a ha
  refine hleaves.atLeast hcounts ?_
  rcases hagrees.entry_cases ha with hheld | rfl
  · exact h a hheld
  · exact UInt64.le_refl _

theorem Floor.step {n : UInt64} (h : Floor c n before (held w)) (hagrees : e.Agrees before held)
    (hleaves : e.Leaves c before after) (hcounts : before.CountsUp after) :
    Floor c n after (entry w (held w) e) := by
  refine ⟨hleaves.atLeast hcounts h.stored, ?_⟩
  intro a ha
  rcases hagrees.entry_cases ha with hheld | rfl
  · exact h.held a hheld
  · exact h.stored

theorem Fixed.eq_of_read {s a : Settings} (h : Fixed s before (held w))
    (hagrees : e.Agrees before held) (ha : read? w e = some a) : a = s := by
  rcases hagrees.read_cases ha with hheld | ⟨-, rfl⟩
  · exact h.held a hheld
  · exact h.stored

/-- Where all can be flushed, what is stored stays until a write is committed. -/
theorem Fixed.step {s : Settings} (hflushes : c.flushes) (h : Fixed s before (held w))
    (hagrees : e.Agrees before held) (hleaves : e.Leaves c before after)
    (hcommit : commit? e = none) : Fixed s after (entry w (held w) e) := by
  constructor
  · cases e with
    | started w fetched | ended w | read w bypass source answer =>
      obtain rfl : after = before := hleaves
      exact h.stored
    | written w u now answer =>
      cases hleaves with
      | done _ _ => cases hcommit
      | unflushed _ hnot _ _ => exact absurd hflushes hnot
      | failed _ hafter =>
        cases hafter with
        | same => exact h.stored
        | obstructed => exact h.stored.elim
        | uncovered _ => exact h.stored.elim
        | cut _ => trivial
        | written _ hnot => exact absurd hflushes hnot
  · intro a ha
    rcases hagrees.entry_cases ha with hheld | rfl
    · exact h.held a hheld
    · exact h.stored

/-! ## Events that account for a record -/

theorem reads_cons (w : WorkerId) (e : Event) (es : List Event) :
    reads w (e :: es) = (read? w e).toList ++ reads w es := by
  unfold reads
  cases h : read? w e with
  | none => simp [h]
  | some a => simp [h]

theorem commits_cons_eq_nil_iff {e : Event} {es : List Event} :
    commits (e :: es) = [] ↔ commit? e = none ∧ commits es = [] := by
  unfold commits
  cases h : commit? e <;> simp [h]

namespace Accounts

/-- Reads stay on a floor. -/
theorem le_of_floor (h : Accounts c before held es last) {n : UInt64}
    (hfloor : Floor c n before (held w)) {a : Settings} (ha : a ∈ reads w es) : n ≤ a.version := by
  induction h with
  | nil => cases ha
  | cons hagrees hleaves hcounts _ ih =>
    rw [reads_cons, List.mem_append, Option.mem_toList] at ha
    rcases ha with ha | ha
    · exact hfloor.le_of_read hagrees ha
    · exact ih (hfloor.step hagrees hleaves hcounts) ha

/-- Reads never go back. -/
theorem pairwise_reads (h : Accounts c before held es last) (hwithin : Within c before (held w)) :
    (reads w es).Pairwise fun a b => a.version ≤ b.version := by
  induction h with
  | nil => exact .nil
  | @cons before after last held e es hagrees hleaves hcounts hrest ih =>
    have ih := ih (hwithin.step hagrees hleaves hcounts)
    rw [reads_cons]
    cases hread : read? w e with
    | none => exact ih
    | some a =>
      -- what has been read is a floor for all that is read later
      refine .cons ?_ ih
      intro b hb
      have hfloor := hwithin.floor_of_read hagrees hread
      exact hrest.le_of_floor (hfloor.step hagrees hleaves hcounts) hb

/-- Reads give what is fixed until a write is committed. -/
theorem eq_of_fixed (h : Accounts c before held es last) (hflushes : c.flushes)
    (hcommits : commits es = []) {s a : Settings} (hfixed : Fixed s before (held w))
    (ha : a ∈ reads w es) : a = s := by
  induction h with
  | nil => cases ha
  | cons hagrees hleaves _ _ ih =>
    obtain ⟨hcommit, hcommits⟩ := commits_cons_eq_nil_iff.mp hcommits
    rw [reads_cons, List.mem_append, Option.mem_toList] at ha
    rcases ha with ha | ha
    · exact hfixed.eq_of_read hagrees ha
    · exact ih hcommits (hfixed.step hflushes hagrees hleaves hcommit) ha

/-- What is stored in the end is on a floor. -/
theorem floor_last (h : Accounts c before held es last) {n : UInt64}
    (hfloor : Floor c n before (held w)) : AtLeast c n last := by
  induction h with
  | nil => exact hfloor.stored
  | cons hagrees hleaves hcounts _ ih => exact ih (hfloor.step hagrees hleaves hcounts)

/-- No read is ahead of the record there is in the end. -/
theorem le_last (h : Accounts c before held es last) (hwithin : Within c before (held w))
    {a : Settings} (ha : a ∈ reads w es) : AtLeast c a.version last := by
  induction h with
  | nil => cases ha
  | cons hagrees hleaves hcounts hrest ih =>
    rw [reads_cons, List.mem_append, Option.mem_toList] at ha
    rcases ha with ha | ha
    · have hfloor := hwithin.floor_of_read hagrees ha
      exact hrest.floor_last (hfloor.step hagrees hleaves hcounts)
    · exact ih (hwithin.step hagrees hleaves hcounts) ha

end Accounts
end Event

/-! ## Runs -/

namespace Session

/-- A write in a chronicle is all that has happened at one move of the run. -/
theorem exists_move_of_written {s : Session RecordStore} {ms : List (Move Bool)}
    {before after : List Event} {w : WorkerId} {u : Update} {now : Instant}
    {answer : Except SettingsError Settings}
    (h : s.chronicle RecordStore.switch ms = before ++ .written w u now answer :: after) :
    ∃ done m rest, ms = done ++ m :: rest ∧
      .written w u now answer ∈ (s.after RecordStore.switch done).events m ∧
      ((s.after RecordStore.switch done).afterMove RecordStore.switch m).chronicle
        RecordStore.switch rest = after := by
  induction ms generalizing s before with
  | nil => exact absurd h (by simp [chronicle])
  | cons m ms ih =>
    have hlater {before' : List Event}
        (h' : (s.afterMove RecordStore.switch m).chronicle RecordStore.switch ms =
          before' ++ .written w u now answer :: after) :
        ∃ done m' rest, m :: ms = done ++ m' :: rest ∧
          .written w u now answer ∈ (s.after RecordStore.switch done).events m' ∧
          ((s.after RecordStore.switch done).afterMove RecordStore.switch m').chronicle
            RecordStore.switch rest = after := by
      obtain ⟨done, m', rest, rfl, hm, hrest⟩ := ih h'
      exact ⟨m :: done, m', rest, rfl, hm, hrest⟩
    rcases List.append_eq_append_iff.mp h with ⟨before', -, hrest⟩ | ⟨later, hevents, hrest⟩
    · exact hlater hrest
    · cases later with
      | nil =>
        rw [← List.nil_append (_ :: _)] at hrest
        exact hlater hrest.symm
      | cons e later =>
        obtain ⟨rfl, hafter⟩ := List.cons.inj hrest
        have hm : .written w u now answer ∈ s.events m := by
          rw [hevents]
          exact List.mem_append_right _ List.mem_cons_self
        rw [events_eq_of_written hm] at hevents
        obtain ⟨-, rfl⟩ : before = [] ∧ later = [] := by
          have hlength := congrArg List.length hevents
          simp only [List.length_cons, List.length_nil, List.length_append] at hlength
          exact ⟨List.length_eq_zero_iff.mp (by omega), List.length_eq_zero_iff.mp (by omega)⟩
        exact ⟨[], m, ms, rfl, hm, hafter.symm⟩

/-- A committed write of its own leaves a worker no entry. -/
theorem held_of_written {s : Session RecordStore} (hlisteners : .invalidation ∈ s.service.listeners)
    {m : Move Bool} {w : WorkerId} {u : Update} {now : Instant} {a : Settings}
    (hm : .written w u now (.ok a) ∈ s.events m) :
    (s.afterMove RecordStore.switch m).held w = none := by
  refine (peek?_afterMove RecordStore.switch hlisteners m w).trans ?_
  rw [events_eq_of_written hm]
  change Event.entry w _ _ = none
  rw [Event.entry_committed, if_pos rfl]

/-- A committed write of its own is all there is of the record for a worker, and what has been
flushed for it once can be again. -/
theorem accounts_of_written {s : Session RecordStore} (h : s.service.backend.IsKept)
    (hlisteners : .invalidation ∈ s.service.listeners) {m : Move Bool} {w : WorkerId} {u : Update}
    {now : Instant} {a : Settings} (hm : .written w u now (.ok a) ∈ s.events m)
    {ms : List (Move Bool)} (hfit : (s.afterMove RecordStore.switch m).VersionsFit ms) :
    ∃ c st held last, c.flushes ∧ Event.Fixed a st (held w) ∧ Event.Floor c a.version st (held w) ∧
      Event.Accounts c st held
        ((s.afterMove RecordStore.switch m).chronicle RecordStore.switch ms) last := by
  have hcommitted := committed_of_written h hm
  have hheld (b : Settings) : (s.afterMove RecordStore.switch m).held w ≠ some b := by
    rw [held_of_written hlisteners hm]
    exact Option.some_ne_none b |>.symm
  let c : Conditions := { s.service.backend.conditions with flushes := True }
  have hc : (s.afterMove RecordStore.switch m).service.backend.conditions.Meets c :=
    ⟨hcommitted.conditions.replaced_eq, hcommitted.conditions.steady, hcommitted.conditions.fit,
      fun _ => hcommitted.flushes a rfl⟩
  have hholds : c.Holds a (s.afterMove RecordStore.switch m).service.backend.stored := by
    cases hcommitted.commits with
    | done _ hafter => exact hafter.of_fit (d := s.service.backend.conditions) id
  exact ⟨c, _, _, _, trivial, ⟨Event.only_of_holds hholds, fun b hb => absurd hb (hheld b)⟩,
    ⟨Event.atLeast_of_holds hholds, fun b hb => absurd hb (hheld b)⟩,
    (accountsFor_after hcommitted.isKept
      (mem_listeners_afterMove RecordStore.switch hlisteners m) hc hfit).accounts⟩

/-- The versions a worker reads never go back; from a committed write of its own on none is
below what the write has answered with, and until another write is committed that is just
what is read. None is ahead of the record there is after the run, and there is one unless what
has been written may be unreadable. -/
theorem reads_runs {store : RecordStore} (hkept : store.IsKept) {config : Config}
    {r : Service RecordStore} (hr : Service.ofBackend store config = .ok r) (thread : WorkerId)
    {ms : List (Move Bool)} {s : Session RecordStore}
    (hs : Runs RecordStore.switch (opened r thread) ms s)
    (hfit : (opened r thread).VersionsFit ms) (w : WorkerId) :
    ((Event.reads w ((opened r thread).chronicle RecordStore.switch ms)).Pairwise
        fun a b => a.version ≤ b.version) ∧
      (∀ a ∈ Event.reads w ((opened r thread).chronicle RecordStore.switch ms),
        (∀ b, s.service.backend.record? = some b → a.version ≤ b.version) ∧
          (store.KeepsRecord → ∃ b, s.service.backend.record? = some b)) ∧
      ∀ before u now a after, (opened r thread).chronicle RecordStore.switch ms =
          before ++ .written w u now (.ok a) :: after →
        (∀ b ∈ Event.reads w after, a.version ≤ b.version) ∧
          ∀ between rest, after = between ++ rest → Event.commits between = [] →
            ∀ b ∈ Event.reads w between, b = a := by
  have hwhole := accountsFor_runs hkept (.refl _) hr hfit
  have hwithin : Event.Within store.conditions (opened r thread).service.backend.stored
      ((opened r thread).held w) := by
    obtain rfl := Service.eq_of_ofBackend hr
    intro a ha
    cases ha
  rw [hs.eq_after]
  refine ⟨hwhole.accounts.pairwise_reads hwithin, fun a ha => ?_, ?_⟩
  · have hlast := hwhole.accounts.le_last hwithin ha
    rw [← RecordStore.record?_stored]
    cases hstored : ((opened r thread).after RecordStore.switch ms).service.backend.stored <;>
      rw [hstored] at hlast
    · exact hlast.elim
    · exact ⟨by rintro b ⟨⟩, fun hkeeps => absurd hkeeps.fit hlast⟩
    · refine ⟨?_, fun _ => ⟨_, rfl⟩⟩
      rintro b ⟨⟩
      exact hlast
  · intro before u now a after hchronicle
    obtain ⟨done, m, rest, rfl, hm, hrest⟩ := exists_move_of_written hchronicle
    have hdone := accountsFor_runs hkept (.refl _) hr hfit.left
    have hlisteners : .invalidation ∈ ((opened r thread).after RecordStore.switch
        done).service.listeners := by
      obtain rfl := Service.eq_of_ofBackend hr
      exact mem_listeners_after RecordStore.switch (List.mem_singleton_self _) done
    obtain ⟨c, st, held, last, hflushes, hfixed, hfloor, haccounts⟩ :=
      accounts_of_written hdone.isKept hlisteners hm hfit.right.2
    rw [hrest] at haccounts
    constructor
    · intro b hb
      exact haccounts.le_of_floor hfloor hb
    · rintro between rest' rfl hcommits b hb
      obtain ⟨mid, hbefore, -⟩ := haccounts.split
      exact hbefore.eq_of_fixed hflushes hcommits hfixed hb

/-- A worker writes, and keeps what it has written while another worker writes; a read
while the store is switched off is degraded, the last one is not. -/
def readsAround : List (Move Bool) :=
  [.use none (.write (some ⟨1⟩) { enableJira := some true } .epoch), .use none (.start ⟨1⟩),
    .use none (.write (some ⟨2⟩) { maxUploadMb := some 5 } .epoch),
    .use none (.get (some ⟨1⟩) false), .use none (.succeed ⟨1⟩), .outside false,
    .use none (.get (some ⟨1⟩) false), .outside true, .use none (.get (some ⟨1⟩) false)]

theorem reads_runs_around :
    Service.ofBackend unwritten.backend {} = .ok unwritten ∧
      (Event.reads ⟨1⟩ ((opened unwritten ⟨0⟩).chronicle RecordStore.switch readsAround)).map
          (·.version) = [1, 2] ∧
      (Event.reads ⟨1⟩ ((opened unwritten ⟨0⟩).chronicle RecordStore.switch readsAround)).Pairwise
        fun a b => a.version ≤ b.version := by
  have hr : Service.ofBackend unwritten.backend {} = .ok unwritten := rfl
  have hkept : unwritten.backend.IsKept := trivial
  have hfit : (opened unwritten ⟨0⟩).VersionsFit readsAround := by
    simp only [readsAround, VersionsFit, afterMove, move, perform_write, perform_start, perform_get,
      perform_succeed]
    decide
  refine ⟨hr, ?_, (reads_runs hkept hr ⟨0⟩ (.moves readsAround) hfit ⟨1⟩).1⟩
  simp only [readsAround, chronicle, events, eventsOf, afterMove, move, perform_write,
    perform_start, perform_get, perform_succeed]
  rfl

end Session
end ScopedSettings
