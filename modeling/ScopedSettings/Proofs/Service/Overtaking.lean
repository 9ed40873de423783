/-
Starts and writes of one worker whose steps fall between each other's.

A write takes the worker's entry once it is committed, and a start makes one of what
its fetch was answered before. So a start can put back what a write has taken: its
fetch comes before the commit and it keeps the answer after the listeners were told
(`Concourse.Overtaken`, `get_after_overtaken_write`). In every other order of their
steps what is read after a write has returned is not older than what it has written
(`le_get_of_returned`). The invariant follows what is still to be kept
(`Errand.Progress`): from the commit on, a start that has been answered with something
older had asked before it.
-/
import ScopedSettings.Proofs.Cache.Contents
import ScopedSettings.Proofs.Service.Committing

namespace ScopedSettings

/-- What is asked of the service on behalf of a worker. -/
inductive Errand
  | start
  | write (u : Update) (now : Instant)

namespace Errand

/-- The course of an errand, with its answer if it is a write. -/
def course (w : WorkerId) : Errand → Course (Option (Except SettingsError Settings))
  | .start => (fun _ => none) <$> Course.start w
  | .write u now => some <$> Course.write w u now

/-- How far an errand has come. -/
inductive Stage
  | emptying
  | fetching
  | keeping (s : Settings)
  | committing (u : Update) (now : Instant)
  | telling (s : Settings) (now : Instant)
  | announcing (s : Settings) (now : Instant)
  | ended (answer : Option (Except SettingsError Settings))

def first : Errand → Stage
  | .start => .emptying
  | .write u now =>
    match u.validate with
    | .error e => .ended (some (.error e))
    | .ok () => .committing u now

/-- The stages of errands for a worker. -/
def plan (w : WorkerId) : Plan Stage (Option (Except SettingsError Settings)) where
  act?
    | .emptying => some (.forget w)
    | .fetching => some .fetch
    | .keeping s => some (.keep w s)
    | .committing u now => some (.commit u now)
    | .telling s now => some (.notify (Service.eventOf w s now))
    | .announcing s now => some (.announce (Service.eventOf w s now))
    | .ended _ => none
  next
    | .emptying, .forget _, _ => .fetching
    | .fetching, .fetch, .ok s => .keeping s
    | .fetching, .fetch, .error _ => .ended none
    | .keeping _, .keep _ _, _ => .ended none
    | .committing _ now, .commit _ _, .ok s => .telling s now
    | .committing _ _, .commit _ _, .error e => .ended (some (.error e))
    | .telling s now, .notify _, _ => .announcing s now
    | .announcing s _, .announce _, _ => .ended (some (.ok s))
    | st, _, _ => st
  answer?
    | .ended answer => some answer
    | _ => none

theorem follows_course (w : WorkerId) (e : Errand) : (plan w).Follows (e.course w) e.first := by
  cases e with
  | start =>
    refine ⟨rfl, rfl, fun removed => ⟨rfl, rfl, fun answer => ?_⟩⟩
    cases answer with
    | error e => exact ⟨rfl, rfl⟩
    | ok s => exact ⟨rfl, rfl, fun _ => ⟨rfl, rfl⟩⟩
  | write u now =>
    dsimp only [course, first, Course.write]
    cases u.validate with
    | error e => exact ⟨rfl, rfl⟩
    | ok _ =>
      refine ⟨rfl, rfl, fun answer => ?_⟩
      cases answer with
      | error e => exact ⟨rfl, rfl⟩
      | ok s => exact ⟨rfl, rfl, fun _ => ⟨rfl, rfl, fun _ => ⟨rfl, rfl⟩⟩⟩

/-- What an errand has committed. -/
def Stage.written? : Stage → Option Settings
  | .telling s _ | .announcing s _ | .ended (some (.ok s)) => some s
  | _ => none

/-- What an errand has committed and told the listeners. -/
def Stage.told? : Stage → Option Settings
  | .announcing s _ | .ended (some (.ok s)) => some s
  | _ => none

theorem Stage.written?_of_told? {st : Stage} {s : Settings} (h : st.told? = some s) :
    st.written? = some s := by
  unfold told? at h
  unfold written?
  split at h <;> simp_all

/-- A stage that has nothing to keep and has written nothing. -/
structure Stage.IsNew (st : Stage) : Prop where
  keeping (a : Settings) : st ≠ .keeping a
  written : st.written? = none

theorem isNew_first (e : Errand) : e.first.IsNew := by
  cases e with
  | start => exact ⟨fun a h => (by cases h), rfl⟩
  | write u now =>
    dsimp only [first]
    cases u.validate with
    | error e => exact ⟨fun a h => (by cases h), rfl⟩
    | ok _ => exact ⟨fun a h => (by cases h), rfl⟩

/-- Among acts in their order, a write is overtaken where a start has had its fetch answered
before the write's commit, and keeps the answer after the write has told the listeners. -/
def Overtaken (w : WorkerId) (acts : List (Nat × Act)) (j : Nat) : Prop :=
  ∃ i u now e a,
    [(i, .fetch), (j, .commit u now), (j, .notify e), (i, .keep w a)].Sublist acts

/-- What the acts of errands for a worker have come to: an entry that is older than what a
write has told of was kept by a start that overtook it, and a record that is still to be kept
and is older than what a write has committed was fetched before. -/
structure Progress (w : WorkerId) (acts : List (Nat × Act)) (r : Service MemoryStore)
    (stages : Nat → Stage) : Prop where
  invalidates : .invalidation ∈ r.listeners
  fetched {i : Nat} {a : Settings} (h : stages i = .keeping a) : (i, .fetch) ∈ acts
  record {j : Nat} {s : Settings} (h : (stages j).written? = some s) :
    ∃ a, r.backend.record = some a ∧ s.version ≤ a.version
  written {i j : Nat} {a s : Settings} (hi : stages i = .keeping a)
    (hj : (stages j).written? = some s) :
    s.version ≤ a.version ∨ ∃ u now, [(i, .fetch), (j, .commit u now)].Sublist acts
  told {i j : Nat} {a s : Settings} (hi : stages i = .keeping a)
    (hj : (stages j).told? = some s) :
    s.version ≤ a.version ∨
      ∃ u now e, [(i, .fetch), (j, .commit u now), (j, .notify e)].Sublist acts
  entry {j : Nat} {a s : Settings} (ha : r.cache.peek? w = some a)
    (hj : (stages j).told? = some s) : s.version ≤ a.version ∨ Overtaken w acts j

/-- What an act may do at its caller's turn: the record does not go back, and what is new
at the caller's stage or in the entry comes from the act. -/
structure Advance (w : WorkerId) (r r' : Service MemoryStore) (st st' : Stage) (a : Act) :
    Prop where
  invalidates (h : .invalidation ∈ r.listeners) : .invalidation ∈ r'.listeners
  record {s : Settings} (h : r.backend.record = some s) :
    ∃ s', r'.backend.record = some s' ∧ s.version ≤ s'.version
  fetched {s : Settings} (h : st' = .keeping s) : a = .fetch ∧ r.backend.record = some s
  written {s : Settings} (h : st'.written? = some s) :
    st.written? = some s ∨ (∃ u now, a = .commit u now) ∧ r'.backend.record = some s
  told {s : Settings} (h : st'.told? = some s) :
    st.told? = some s ∨ (∃ e, a = .notify e) ∧ st.written? = some s
  entry {s : Settings} (h : r'.cache.peek? w = some s) :
    ((∀ e, a ≠ .notify e) ∧ r.cache.peek? w = some s) ∨ a = .keep w s ∧ st = .keeping s

variable {w : WorkerId} {acts : List (Nat × Act)} {r r' : Service MemoryStore}
  {stages : Nat → Stage}

theorem Overtaken.concat {j : Nat} (h : Overtaken w acts j) (x : Nat × Act) :
    Overtaken w (acts ++ [x]) j := by
  obtain ⟨i, u, now, e, a, h⟩ := h
  exact ⟨i, u, now, e, a, h.trans (List.sublist_append_left acts [x])⟩

theorem sublist_concat {xs : List (Nat × Act)} (h : xs.Sublist acts) (x : Nat × Act) :
    (xs ++ [x]).Sublist (acts ++ [x]) :=
  h.append (List.Sublist.refl [x])

theorem sublist_concat_left {xs : List (Nat × Act)} (h : xs.Sublist acts) (x : Nat × Act) :
    xs.Sublist (acts ++ [x]) :=
  h.trans (List.sublist_append_left acts [x])

/-- What is said of a stage is said of the new one, or of another caller's. -/
theorem update_cases {f : Stage → α} {k i : Nat} {st : Stage} {x : α}
    (h : f (Function.update stages k st i) = x) :
    i = k ∧ f st = x ∨ i ≠ k ∧ f (stages i) = x := by
  by_cases hi : i = k
  · subst hi
    rw [Function.update_self] at h
    exact .inl ⟨rfl, h⟩
  · rw [Function.update_of_ne hi] at h
    exact .inr ⟨hi, h⟩

theorem Progress.written_concat (h : Progress w acts r stages) (x : Nat × Act) {i j : Nat}
    {a s : Settings} (hi : stages i = .keeping a) (hj : (stages j).written? = some s) :
    s.version ≤ a.version ∨ ∃ u now, [(i, .fetch), (j, .commit u now)].Sublist (acts ++ [x]) := by
  refine (h.written hi hj).imp_right ?_
  rintro ⟨u, now, hsub⟩
  exact ⟨u, now, sublist_concat_left hsub x⟩

theorem Progress.told_concat (h : Progress w acts r stages) (x : Nat × Act) {i j : Nat}
    {a s : Settings} (hi : stages i = .keeping a) (hj : (stages j).told? = some s) :
    s.version ≤ a.version ∨
      ∃ u now e, [(i, .fetch), (j, .commit u now), (j, .notify e)].Sublist (acts ++ [x]) := by
  refine (h.told hi hj).imp_right ?_
  rintro ⟨u, now, e, hsub⟩
  exact ⟨u, now, e, sublist_concat_left hsub x⟩

variable {k : Nat} {st : Stage} {a : Act}

theorem Progress.record_act (h : Progress w acts r stages)
    (hadvance : Advance w r r' (stages k) st a) {j : Nat} {s : Settings}
    (hj : (Function.update stages k st j).written? = some s) :
    ∃ b, r'.backend.record = some b ∧ s.version ≤ b.version := by
  have hold {s : Settings} (hs : (stages j).written? = some s) :
      ∃ b, r'.backend.record = some b ∧ s.version ≤ b.version := by
    obtain ⟨b, hb, hle⟩ := h.record hs
    obtain ⟨b', hb', hle'⟩ := hadvance.record hb
    exact ⟨b', hb', UInt64.le_trans hle hle'⟩
  rcases update_cases hj with ⟨rfl, hst⟩ | ⟨-, hj⟩
  · rcases hadvance.written hst with hj | ⟨-, hnew⟩
    · exact hold hj
    · exact ⟨s, hnew, UInt64.le_refl _⟩
  · exact hold hj

/-- A record that has just been fetched is not older than what is committed. -/
theorem Progress.le_of_fetched (h : Progress w acts r stages)
    (hadvance : Advance w r r' (stages k) st a) {b : Settings} (hst : st = .keeping b) {j : Nat}
    {s : Settings} (hj : (Function.update stages k st j).written? = some s) :
    s.version ≤ b.version := by
  obtain ⟨-, hb⟩ := hadvance.fetched hst
  rcases update_cases hj with ⟨-, hwritten⟩ | ⟨-, hj⟩
  · rw [hst] at hwritten
    cases hwritten
  · obtain ⟨c, hc, hle⟩ := h.record hj
    obtain rfl : b = c := by simpa [hb] using hc
    exact hle

theorem Progress.written_act (h : Progress w acts r stages)
    (hadvance : Advance w r r' (stages k) st a) {i j : Nat} {b s : Settings}
    (hi : Function.update stages k st i = .keeping b)
    (hj : (Function.update stages k st j).written? = some s) :
    s.version ≤ b.version ∨
      ∃ u now, [(i, .fetch), (j, .commit u now)].Sublist (acts ++ [(k, a)]) := by
  rcases update_cases (f := id) hi with ⟨-, hst⟩ | ⟨-, hkeeping⟩
  · exact .inl (h.le_of_fetched hadvance hst hj)
  · rcases update_cases hj with ⟨rfl, hst⟩ | ⟨-, hj⟩
    · rcases hadvance.written hst with hj | ⟨⟨u, now, rfl⟩, -⟩
      · exact h.written_concat _ hkeeping hj
      · -- what is still to be kept was fetched before this commit
        exact .inr ⟨u, now, sublist_concat (List.singleton_sublist.mpr (h.fetched hkeeping)) _⟩
    · exact h.written_concat _ hkeeping hj

theorem Progress.told_act (h : Progress w acts r stages)
    (hadvance : Advance w r r' (stages k) st a) {i j : Nat} {b s : Settings}
    (hi : Function.update stages k st i = .keeping b)
    (hj : (Function.update stages k st j).told? = some s) :
    s.version ≤ b.version ∨
      ∃ u now e, [(i, .fetch), (j, .commit u now), (j, .notify e)].Sublist
        (acts ++ [(k, a)]) := by
  rcases update_cases (f := id) hi with ⟨-, hst⟩ | ⟨-, hkeeping⟩
  · exact .inl (h.le_of_fetched hadvance hst (Stage.written?_of_told? hj))
  · rcases update_cases hj with ⟨rfl, hst⟩ | ⟨-, hj⟩
    · rcases hadvance.told hst with hj | ⟨⟨e, rfl⟩, hwritten⟩
      · exact h.told_concat _ hkeeping hj
      · refine (h.written hkeeping hwritten).imp_right ?_
        rintro ⟨u, now, hsub⟩
        exact ⟨u, now, e, sublist_concat hsub _⟩
    · exact h.told_concat _ hkeeping hj

theorem Progress.entry_act (h : Progress w acts r stages)
    (hadvance : Advance w r r' (stages k) st a) {j : Nat} {b s : Settings}
    (hb : r'.cache.peek? w = some b) (hj : (Function.update stages k st j).told? = some s) :
    s.version ≤ b.version ∨ Overtaken w (acts ++ [(k, a)]) j := by
  rcases hadvance.entry hb with ⟨hquiet, hold⟩ | ⟨rfl, hkeeping⟩
  · have htold : (stages j).told? = some s := by
      rcases update_cases hj with ⟨rfl, hst⟩ | ⟨-, hj⟩
      · rcases hadvance.told hst with hj | ⟨⟨e, he⟩, -⟩
        · exact hj
        · exact absurd he (hquiet e)
      · exact hj
    exact (h.entry hold htold).imp_right fun ho => ho.concat _
  · have htold : (stages j).told? = some s := by
      rcases update_cases hj with ⟨rfl, hst⟩ | ⟨-, hj⟩
      · rcases hadvance.told hst with hj | ⟨⟨e, he⟩, -⟩
        · exact hj
        · cases he
      · exact hj
    refine (h.told hkeeping htold).imp_right ?_
    rintro ⟨u, now, e, hsub⟩
    exact ⟨k, u, now, e, b, sublist_concat hsub _⟩

/-- Progress is kept by every act. -/
theorem Progress.act (h : Progress w acts r stages)
    (hadvance : Advance w r r' (stages k) st a) :
    Progress w (acts ++ [(k, a)]) r' (Function.update stages k st) where
  invalidates := hadvance.invalidates h.invalidates
  fetched {i b} hi := by
    rcases update_cases (f := id) hi with ⟨rfl, hst⟩ | ⟨-, hi⟩
    · rw [(hadvance.fetched hst).1]
      exact List.mem_append_right _ (List.mem_singleton_self _)
    · exact List.mem_append_left _ (h.fetched hi)
  record hj := h.record_act hadvance hj
  written hi hj := h.written_act hadvance hi hj
  told hi hj := h.told_act hadvance hi hj
  entry hb hj := h.entry_act hadvance hb hj

/-! ## Acts on a store in memory -/

/-- An act that leaves the record, the listeners and the worker's entry. -/
theorem advance_quiet (hl : r'.listeners = r.listeners) (hb : r'.backend.record = r.backend.record)
    (hc : r'.cache.peek? w = r.cache.peek? w) {st st' : Stage} {a : Act}
    (hquiet : ∀ e, a ≠ .notify e)
    (hfetched : ∀ s, st' = .keeping s → a = .fetch ∧ r.backend.record = some s)
    (hwritten : ∀ s, st'.written? = some s → st.written? = some s)
    (htold : ∀ s, st'.told? = some s → st.told? = some s) : Advance w r r' st st' a where
  invalidates h := hl ▸ h
  record {s} h := ⟨s, hb.trans h, UInt64.le_refl _⟩
  fetched {s} h := hfetched s h
  written {s} h := .inl (hwritten s h)
  told {s} h := .inl (htold s h)
  entry h := .inl ⟨hquiet, hc.symm.trans h⟩

theorem advance_emptying (w : WorkerId) (r : Service MemoryStore) :
    Advance w r (r.carryOut (.forget w)).2 .emptying .fetching (.forget w) where
  invalidates h := h
  record {s} h := ⟨s, h, UInt64.le_refl _⟩
  fetched h := by cases h
  written h := by cases h
  told h := by cases h
  entry h := by
    have hnone : (r.carryOut (.forget w)).2.cache.peek? w = none :=
      ScopeCache.peek?_clear_self _ _
    rw [hnone] at h
    cases h

theorem advance_fetching (w : WorkerId) (r : Service MemoryStore) :
    Advance w r (r.carryOut .fetch).2 .fetching
      ((plan w).onward .fetching .fetch (r.carryOut .fetch).1) .fetch := by
  rw [Service.carryOut_fetch]
  refine advance_quiet ?_ ?_ ?_ (fun e h => ?_) ?_ ?_ ?_
  iterate 3 rfl
  · cases h
  all_goals
    intro s hs
    cases hanswer : r.backend.answer with
    | error e =>
      rw [hanswer] at hs
      cases hs
    | ok a =>
      rw [hanswer] at hs
      cases hs
      try exact ⟨rfl, MemoryStore.answer_eq_ok hanswer⟩

theorem advance_keeping (w : WorkerId) (r : Service MemoryStore) (a : Settings) :
    Advance w r (r.carryOut (.keep w a)).2 (.keeping a) (.ended none) (.keep w a) where
  invalidates h := h
  record {s} h := ⟨s, h, UInt64.le_refl _⟩
  fetched h := by cases h
  written h := by cases h
  told h := by cases h
  entry {s} h := by
    have hself : (r.carryOut (.keep w a)).2.cache.peek? w = some a :=
      ScopeCache.peek?_put_self _ _ _
    rw [hself] at h
    cases h
    exact .inr ⟨rfl, rfl⟩

theorem advance_committing (w : WorkerId) (r : Service MemoryStore) (u : Update) (now : Instant)
    (hfit : ∀ waited s, (r.carryOut (.commit u now)).1 = some (waited, .ok s) → s.version ≠ 0) :
    Advance w r (r.carryOut (.commit u now)).2 (.committing u now)
      ((plan w).onward (.committing u now) (.commit u now) (r.carryOut (.commit u now)).1)
      (.commit u now) := by
  rw [Service.carryOut_commit] at hfit ⊢
  split
  · rename_i havailable
    rw [if_pos havailable] at hfit
    have hversion := hfit _ _ rfl
    refine ⟨id, ?_, ?_, ?_, ?_, fun hb => .inl ⟨by simp, hb⟩⟩
    · intro s hs
      rw [hs] at hversion ⊢
      exact ⟨u.apply s now, rfl, Update.le_version_apply hversion⟩
    · intro s hs
      cases hs
    · intro s hs
      cases hs
      exact .inr ⟨⟨u, now, rfl⟩, rfl⟩
    · intro s hs
      cases hs
  · exact advance_quiet rfl rfl rfl (by simp) (by rintro s ⟨⟩) (by rintro s ⟨⟩) (by rintro s ⟨⟩)

theorem advance_telling (w : WorkerId) {r : Service MemoryStore}
    (hl : .invalidation ∈ r.listeners) (a : Settings) (now : Instant) :
    Advance w r (r.carryOut (.notify (Service.eventOf w a now))).2 (.telling a now)
      (.announcing a now) (.notify (Service.eventOf w a now)) where
  invalidates h := Service.mem_listeners_foldl_tell _ h
  record {s} h := by
    refine ⟨s, ?_, UInt64.le_refl _⟩
    change (r.notify _).backend.record = _
    rw [Service.backend_notify]
    exact h
  fetched h := by cases h
  written h := .inl h
  told h := .inr ⟨⟨_, rfl⟩, h⟩
  entry h := by
    have hnone : (r.carryOut (.notify (Service.eventOf w a now))).2.cache.peek? w = none :=
      Service.peek?_foldl_tell_self (e := Service.eventOf w a now) hl r
    rw [hnone] at h
    cases h

/-- At its turn an errand advances by the act of its stage. -/
theorem advance_carryOut {w : WorkerId} {r : Service MemoryStore}
    (hl : .invalidation ∈ r.listeners) {st : Stage} {a : Act} (ha : (plan w).act? st = some a)
    (hfit : ∀ u now waited s, a = .commit u now →
      (r.carryOut (.commit u now)).1 = some (waited, .ok s) → s.version ≠ 0) :
    Advance w r (r.carryOut a).2 st ((plan w).onward st a (r.carryOut a).1) a := by
  cases st with
  | emptying =>
    cases ha
    exact advance_emptying w r
  | fetching =>
    cases ha
    exact advance_fetching w r
  | keeping s =>
    cases ha
    exact advance_keeping w r s
  | committing u now =>
    cases ha
    exact advance_committing w r u now fun waited s h => hfit u now waited s rfl h
  | telling s now =>
    cases ha
    exact advance_telling w hl s now
  | announcing s now =>
    cases ha
    refine advance_quiet ?_ ?_ ?_ (fun e h => ?_) (fun a h => ?_) (fun _ h => h) fun _ h => h
    iterate 3 rfl
    · cases h
    · cases h
  | ended answer => cases ha

end Errand

/-! ## All turns -/

namespace Concourse

open Errand

/-- Errands for a worker on a service. -/
def ofErrands (r : Service MemoryStore) (w : WorkerId) (es : List Errand) :
    Concourse MemoryStore (Option (Except SettingsError Settings)) :=
  ofCourses r (es.map (Errand.course w))

variable {r : Service MemoryStore} {w : WorkerId} {es : List Errand} {turns : List Nat}

theorem isAt_first (r : Service MemoryStore) (w : WorkerId) (es : List Errand) :
    IsAt (plan w) (ofErrands r w es) fun i => (es[i]?.map Errand.first).getD (.ended none) := by
  intro i course hcourse
  unfold ofErrands at hcourse
  rw [course?_ofCourses, List.getElem?_map] at hcourse
  obtain ⟨e, he, rfl⟩ := Option.map_eq_some_iff.mp hcourse
  dsimp only
  rw [he]
  exact follows_course w e

theorem progress_first (hl : .invalidation ∈ r.listeners) (w : WorkerId) (es : List Errand) :
    Progress w [] r fun i => (es[i]?.map Errand.first).getD (.ended none) := by
  have hnew (i : Nat) : ((es[i]?.map Errand.first).getD (.ended none)).IsNew := by
    cases es[i]? with
    | none => exact ⟨fun a h => (by cases h), rfl⟩
    | some e => exact e.isNew_first
  have hunwritten {j : Nat} {s : Settings} :
      ((es[j]?.map Errand.first).getD (.ended none)).written? ≠ some s := by
    rw [(hnew j).written]
    exact fun h => (by cases h)
  refine ⟨hl, fun h => absurd h ((hnew _).keeping _), ?_, ?_, ?_, ?_⟩
  · exact fun h => absurd h hunwritten
  · exact fun h => absurd h ((hnew _).keeping _)
  · exact fun h => absurd h ((hnew _).keeping _)
  · exact fun _ h => absurd (Stage.written?_of_told? h) hunwritten

/-- After all turns the errands have made progress. -/
theorem exists_progress (hl : .invalidation ∈ r.listeners) (w : WorkerId) (es : List Errand)
    (hfit : (ofErrands r w es).VersionsFit turns) :
    ∃ stages, IsAt (plan w) ((ofErrands r w es).after turns) stages ∧
      Progress w ((ofErrands r w es).acts turns) ((ofErrands r w es).after turns).service
        stages := by
  have hall := exists_stages
    (I := fun turns stages => (ofErrands r w es).VersionsFit turns →
      Progress w ((ofErrands r w es).acts turns) ((ofErrands r w es).after turns).service stages)
    (isAt_first r w es) (fun _ => progress_first hl w es) ?_ ?_ turns
  · obtain ⟨stages, hat, hprogress⟩ := hall
    exact ⟨stages, hat, hprogress hfit⟩
  · intro turns stages i hact hprogress hfit
    rw [acts_concat, hact, after_concat, turn_of_idle hact]
    simpa using hprogress hfit.left
  · intro turns stages i a hact hplan hprogress hfit
    have hnow := hprogress hfit.left
    rw [acts_concat, hact, after_concat, service_turn hact]
    refine hnow.act (advance_carryOut hnow.invalidates hplan ?_)
    rintro u now waited s rfl hanswer
    exact hfit.right.head (k := ⟨u, now, s⟩) (commit?_eq_some_iff.mpr ⟨hact, waited, hanswer⟩)

/-- Once a write has returned what it has committed, and no start has overtaken it, a read with
the store ready gives nothing of an earlier version, however the steps of the starts and writes
of the worker have fallen. -/
theorem le_get_of_returned (hl : .invalidation ∈ r.listeners) (w : WorkerId)
    (es : List Errand) (hfit : (ofErrands r w es).VersionsFit turns) {j : Nat} {s : Settings}
    (hreturned : ((ofErrands r w es).after turns).answer? j = some (some (.ok s)))
    (hovertaken : ¬ Overtaken w ((ofErrands r w es).acts turns) j)
    (hready : ((ofErrands r w es).after turns).service.backend.available = true)
    (patience : Option Duration) :
    ∃ a, (((ofErrands r w es).after turns).service.perform (Course.get w false) patience).1 =
        some (.ok a, patience) ∧ s.version ≤ a.version := by
  obtain ⟨stages, hat, hprogress⟩ := exists_progress hl w es hfit
  have hstage : (plan w).answer? (stages j) = some (some (.ok s)) := hat.answer?_eq hreturned
  have hj : (stages j).told? = some s := by
    cases hst : stages j with
    | ended answer =>
      rw [hst] at hstage
      cases hstage
      rfl
    | _ =>
      rw [hst] at hstage
      cases hstage
  generalize ((ofErrands r w es).after turns).service = q at hprogress hready ⊢
  cases hheld : q.cache.peek? w with
  | some a =>
    refine ⟨a, ?_, (hprogress.entry hheld hj).resolve_right hovertaken⟩
    rw [Service.perform_get_hit hheld]
  | none =>
    obtain ⟨a, ha, hle⟩ := hprogress.record (Stage.written?_of_told? hj)
    have hload : (Backend.load q.backend).2 = .now (.ok a) := by
      have hanswer : q.backend.answer = .ok a := by
        unfold MemoryStore.answer
        rw [hready, ha]
        rfl
      exact congrArg Reply.now hanswer
    refine ⟨a, ?_, hle⟩
    rw [Service.perform_get_miss hheld, Service.fetching_of_now hload]
    rfl

/-- A start and a write of the first worker. -/
def startAndWrite : Concourse MemoryStore (Option (Except SettingsError Settings)) :=
  ofErrands .seeded ⟨1⟩ [.start, .write { enableJira := some true } .epoch]

/-- What the write of `startAndWrite` commits. -/
def jiraEnabled : Settings :=
  { enableJira := true, version := 1, updatedAt := some Instant.epoch }

/-- The write falls between the start's fetch and what the start makes of its answer. -/
theorem get_after_write_within_start :
    ∃ a, ((startAndWrite.after [0, 0, 1, 1, 1]).service.perform (Course.get ⟨1⟩ false) none).1 =
      some (.ok a, none) ∧ jiraEnabled.version ≤ a.version := by
  have hl : .invalidation ∈ Service.seeded.listeners := List.mem_singleton_self _
  have hfit : startAndWrite.VersionsFit [0, 0, 1, 1, 1] := by decide +kernel
  have hovertaken : ¬ Overtaken ⟨1⟩ (startAndWrite.acts [0, 0, 1, 1, 1]) 1 := by
    rintro ⟨i, u, now, e, a, hsub⟩
    have hacts : startAndWrite.acts [0, 0, 1, 1, 1] =
      [(0, .forget ⟨1⟩), (0, .fetch), (1, .commit { enableJira := some true } .epoch),
        (1, .notify (Service.eventOf ⟨1⟩ jiraEnabled .epoch)),
        (1, .announce (Service.eventOf ⟨1⟩ jiraEnabled .epoch))] := rfl
    have hkeep : (i, Act.keep ⟨1⟩ a) ∈ startAndWrite.acts [0, 0, 1, 1, 1] :=
      hsub.subset (by simp)
    rw [hacts] at hkeep
    simp at hkeep
  exact le_get_of_returned hl ⟨1⟩ _ hfit rfl hovertaken rfl none

/-- With the write's steps within the start's, what is read once both have returned is of an
earlier version than what the write has returned. -/
theorem get_after_overtaken_write :
    Service.ofBackend Service.seeded.backend {} = .ok .seeded ∧
      (startAndWrite.after [0, 0, 1, 1, 1, 0]).answer? 1 = some (some (.ok jiraEnabled)) ∧
      (startAndWrite.after [0, 0, 1, 1, 1, 0]).service.backend.available = true ∧
      ((startAndWrite.after [0, 0, 1, 1, 1, 0]).service.perform (Course.get ⟨1⟩ false) none).1 =
        some (.ok .default, none) ∧
      ¬ jiraEnabled.version ≤ Settings.default.version := by
  exact ⟨rfl, rfl, rfl, rfl, by decide⟩

end Concourse
end ScopedSettings
