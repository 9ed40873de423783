/-
What a worker sees of a run depends on the others only through what they have
left in the store.

Leave out what other workers have done, except the writes that have replaced the record
(`Session.without`): every operation of the worker has the same outcome as before,
and its entry and the record are the same at every point. The two runs are kept in
step by a relation of what the worker can tell apart (`AlikeFor`). A move that is
left out is made in one of them only and is aside from the worker (`Aside`); one that
stays is made in both. Not only committed writes have to stay (`outcomes_amiss`): one that
fails may have replaced the record before, or it has made a directory on its way and so
made a path lead to a record that was not there to be read.
-/
import ScopedSettings.Proofs.Cache.Contents
import ScopedSettings.Proofs.Service.WriteHistory
import ScopedSettings.Proofs.Store.FailedCommits

namespace ScopedSettings

open Files

/-! ## Runs without other workers -/

/-- The worker an operation acts for, where every name of a unit has an owner. -/
def Operation.actor (owner : String → WorkerId) (current : WorkerId) : Operation → WorkerId
  | .get w _ | .write w _ _ => w.getD current
  | .fetch => current
  | .start w | .succeed w | .fail w | .begin w _ => w
  | .succeedUnit name | .failUnit name | .dropUnit name => owner name

/-- Does a move begin a unit, if any, under a name that belongs to its worker? -/
def Move.RespectsNames (owner : String → WorkerId) : Move ξ → Prop
  | .use _ (.begin w name) => w = owner name
  | _ => True

namespace Session

/-- Does a move replace the record, or make a directory? -/
def marks (s : Session RecordStore) (m : Move Disturbance) : Bool :=
  !(Event.replacements s.service.backend.isUnflushed (s.events m)).isEmpty ||
    (s.afterMove RecordStore.disturb m).service.backend.tree.directories.size !=
      s.service.backend.tree.directories.size

/-- Does a move stay when what other workers have done is left out? An operation does if
it is the worker's own, or marks the store. -/
def stays (owner : String → WorkerId) (w : WorkerId) (s : Session RecordStore) :
    Move Disturbance → Bool
  | .use patience o => o.actor owner s.current == w || s.marks (.use patience o)
  | .enter _ | .leave | .register _ | .outside _ => true

/-- The moves of a run without those that do not stay. -/
def without (owner : String → WorkerId) (w : WorkerId) (s : Session RecordStore) :
    List (Move Disturbance) → List (Move Disturbance)
  | [] => []
  | m :: ms =>
    let rest := (s.afterMove RecordStore.disturb m).without owner w ms
    if s.stays owner w m then m :: rest else rest

/-- What a move comes to, if it is an operation of the worker. -/
def outcomesOf (owner : String → WorkerId) (w : WorkerId) (s : Session RecordStore) :
    Move Disturbance → List (Option Outcome)
  | .use patience o =>
    if o.actor owner s.current = w then [((perform patience o).alone s).1] else []
  | .enter _ | .leave | .register _ | .outside _ => []

/-- What the operations of a worker come to in a run, in order. -/
def outcomes (owner : String → WorkerId) (w : WorkerId) (s : Session RecordStore) :
    List (Move Disturbance) → List (Option Outcome)
  | [] => []
  | m :: ms =>
    s.outcomesOf owner w m ++ (s.afterMove RecordStore.disturb m).outcomes owner w ms

variable {owner : String → WorkerId} {w : WorkerId} {s s' t t' : Session RecordStore}

theorem marks_eq_false_iff {m : Move Disturbance} :
    s.marks m = false ↔
      Event.replacements s.service.backend.isUnflushed (s.events m) = [] ∧
      (s.afterMove RecordStore.disturb m).service.backend.tree.directories.size =
        s.service.backend.tree.directories.size := by
  simp [marks]

theorem without_append (owner : String → WorkerId) (w : WorkerId) (s : Session RecordStore)
    (ms ms' : List (Move Disturbance)) :
    s.without owner w (ms ++ ms') =
      s.without owner w ms ++ (s.after RecordStore.disturb ms).without owner w ms' := by
  induction ms generalizing s with
  | nil => rfl
  | cons m ms ih =>
    rw [List.cons_append, without, without, ih]
    split <;> rfl

/-! ## Units -/

theorem unit?_closeUnit (s : Session β) (name n : String) :
    (s.closeUnit name).unit? n = if n = name then none else s.unit? n := by
  unfold closeUnit unit?
  rw [List.find?_filter]
  split
  · rename_i hn
    subst hn
    simp
  · rename_i hn
    congr 2
    funext u
    by_cases hu : u.1 = n
    · simp [hu, hn]
    · simp [hu]

theorem unit?_openUnit (s : Session β) (name : String) (v : WorkerId) (n : String) :
    (s.openUnit name v).unit? n = if n = name then some v else s.unit? n := by
  by_cases hn : n = name
  · subst hn
    simp [openUnit, unit?]
  · have hb : (name == n) = false := by simpa using Ne.symm hn
    have hclose := unit?_closeUnit s name n
    rw [if_neg hn] at hclose ⊢
    rw [← hclose]
    unfold openUnit unit?
    rw [List.find?_cons, hb]

/-- Is every open unit one of its name's owner? -/
def Owned (owner : String → WorkerId) (s : Session RecordStore) : Prop :=
  ∀ name v, s.unit? name = some v → v = owner name

theorem Owned.closeUnit (h : Owned owner s) (name : String) : Owned owner (s.closeUnit name) := by
  intro n v hv
  rw [unit?_closeUnit] at hv
  split at hv
  · cases hv
  · exact h n v hv

theorem Owned.openUnit (h : Owned owner s) (name : String) :
    Owned owner (s.openUnit name (owner name)) := by
  intro n v hv
  rw [unit?_openUnit] at hv
  split at hv
  · rename_i hn
    subst hn
    cases hv
    rfl
  · exact h n v hv

/-! ## What a worker can tell apart -/

/-- Sessions that a worker cannot tell apart. -/
structure AlikeFor (owner : String → WorkerId) (w : WorkerId) (s t : Session RecordStore) :
    Prop where
  backend : RecordStore.Indistinct s.service.backend t.service.backend
  entry : s.service.cache.peek? w = t.service.cache.peek? w
  thread : s.thread = t.thread
  scopes : s.scopes = t.scopes
  units (name : String) (h : owner name = w) : s.unit? name = t.unit? name
  invalidates : .invalidation ∈ s.service.listeners ∧ .invalidation ∈ t.service.listeners
  owned : Owned owner s ∧ Owned owner t

theorem AlikeFor.symm (h : AlikeFor owner w s t) : AlikeFor owner w t s where
  backend := h.backend.symm
  entry := h.entry.symm
  thread := h.thread.symm
  scopes := h.scopes.symm
  units name hname := (h.units name hname).symm
  invalidates := h.invalidates.symm
  owned := h.owned.symm

theorem AlikeFor.current_eq (h : AlikeFor owner w s t) : s.current = t.current := by
  unfold current
  rw [h.scopes, h.thread]

/-- A session after something that is aside from the worker. -/
structure Aside (owner : String → WorkerId) (w : WorkerId) (s s' : Session RecordStore) :
    Prop where
  backend {q : RecordStore} (h : RecordStore.Indistinct s.service.backend q) :
    RecordStore.Indistinct s'.service.backend q
  entry : s'.service.cache.peek? w = s.service.cache.peek? w
  thread : s'.thread = s.thread
  scopes : s'.scopes = s.scopes
  units (name : String) (h : owner name = w) : s'.unit? name = s.unit? name
  invalidates (h : .invalidation ∈ s.service.listeners) : .invalidation ∈ s'.service.listeners
  owned (h : Owned owner s) : Owned owner s'

theorem AlikeFor.aside (h : AlikeFor owner w s t) (hs : Aside owner w s s') :
    AlikeFor owner w s' t where
  backend := hs.backend h.backend
  entry := hs.entry.trans h.entry
  thread := hs.thread.trans h.thread
  scopes := hs.scopes.trans h.scopes
  units name hname := (hs.units name hname).trans (h.units name hname)
  invalidates := ⟨hs.invalidates h.invalidates.1, h.invalidates.2⟩
  owned := ⟨hs.owned h.owned.1, h.owned.2⟩

theorem AlikeFor.aside_both (h : AlikeFor owner w s t) (hs : Aside owner w s s')
    (ht : Aside owner w t t') : AlikeFor owner w s' t' :=
  ((h.aside hs).symm.aside ht).symm

/-! ## Operations of other workers -/

theorem Aside.refl (s : Session RecordStore) : Aside owner w s s :=
  ⟨id, rfl, rfl, rfl, fun _ _ => rfl, id, id⟩

theorem Aside.trans (h : Aside owner w s s') (h' : Aside owner w s' t) : Aside owner w s t where
  backend hq := h'.backend (h.backend hq)
  entry := h'.entry.trans h.entry
  thread := h'.thread.trans h.thread
  scopes := h'.scopes.trans h.scopes
  units name hname := (h'.units name hname).trans (h.units name hname)
  invalidates hl := h'.invalidates (h.invalidates hl)
  owned ho := h'.owned (h.owned ho)

/-- A change to the service that leaves the worker's entry and gives stores no other answers. -/
theorem aside_withService {r : Service RecordStore}
    (hbackend : ∀ {q}, RecordStore.Indistinct s.service.backend q →
      RecordStore.Indistinct r.backend q)
    (hentry : r.cache.peek? w = s.service.cache.peek? w)
    (hinvalidates : .invalidation ∈ s.service.listeners → .invalidation ∈ r.listeners) :
    Aside owner w s (s.withService r) :=
  ⟨hbackend, hentry, rfl, rfl, fun _ _ => rfl, hinvalidates, id⟩

/-- Loads are aside from every worker. -/
theorem aside_loaded (s : Session RecordStore) : Aside owner w s (s.withService s.service.loaded) :=
  aside_withService (fun h => h.load_left) rfl id

theorem aside_get (s : Session RecordStore) (v : WorkerId) (bypass : Bool)
    (patience : Option Duration) :
    Aside owner w s (s.withService (s.service.perform (Course.get v bypass) patience).2) := by
  refine aside_withService ?_ (Service.peek?_perform_get v bypass patience _ w) ?_
  · intro q hq
    cases bypass with
    | true =>
      rw [Service.perform_get_bypass]
      exact hq.load_left
    | false =>
      cases h : s.service.cache.peek? v with
      | some a =>
        rw [Service.perform_get_hit h]
        exact hq
      | none =>
        rw [Service.perform_get_miss h]
        exact hq.load_left
  · rw [Service.listeners_perform_get]
    exact id

theorem aside_started {v : WorkerId} (hv : v ≠ w) (s : Session RecordStore)
    (fetched : Option Settings) :
    Aside owner w s (s.withService (s.service.started v fetched)) := by
  refine aside_withService (fun h => h.load_left) ?_ id
  rw [Service.peek?_started, Event.entry_started, if_neg hv]

theorem aside_finished {v : WorkerId} (hv : v ≠ w) (s : Session RecordStore) :
    Aside owner w s (s.finished v) := by
  refine aside_withService id ?_ id
  exact ScopeCache.peek?_clear_other _ (Ne.symm hv)

theorem aside_closeUnit {name : String} (hname : owner name ≠ w) (s : Session RecordStore) :
    Aside owner w s (s.closeUnit name) where
  backend h := h
  entry := rfl
  thread := rfl
  scopes := rfl
  units n hn := by
    rw [unit?_closeUnit, if_neg]
    rintro rfl
    exact hname hn
  invalidates h := h
  owned h := h.closeUnit name

theorem aside_openUnit {name : String} (hname : owner name ≠ w) (s : Session RecordStore) :
    Aside owner w s (s.openUnit name (owner name)) where
  backend h := h
  entry := rfl
  thread := rfl
  scopes := rfl
  units n hn := by
    rw [unit?_openUnit, if_neg]
    rintro rfl
    exact hname hn
  invalidates h := h
  owned h := h.openUnit name

/-- A unit that is closed is one of its name's owner. -/
theorem aside_closed (ho : Owned owner s) {name : String} (hname : owner name ≠ w) :
    Aside owner w s (s.closed name) := by
  unfold closed
  cases hu : s.unit? name with
  | none => exact aside_closeUnit hname s
  | some v =>
    obtain rfl := ho name v hu
    exact (aside_closeUnit hname s).trans (aside_finished hname _)

theorem aside_begun (ho : Owned owner s) {name : String} (hname : owner name ≠ w) :
    Aside owner w s (s.begun (owner name) name) := by
  unfold begun
  cases hu : s.unit? name with
  | none => exact aside_openUnit hname s
  | some v =>
    obtain rfl := ho name v hu
    exact (aside_openUnit hname s).trans (aside_finished hname _)

/-- A write that neither replaces the record nor makes a directory is aside from every worker. -/
theorem aside_write (hkeeps : s.service.backend.KeepsRecord) {v : Option WorkerId} {u : Update}
    {now : Instant} {patience : Option Duration}
    (hmarks : s.marks (.use patience (.write v u now)) = false) :
    Aside owner w s ((perform patience (.write v u now)).alone s).2 := by
  obtain ⟨hnone, hsize⟩ := marks_eq_false_iff.mp hmarks
  change Event.replacements _ (s.eventsOf patience (.write v u now)) = [] at hnone
  change ((perform patience (.write v u now)).alone s).2.service.backend.tree.directories.size = _
    at hsize
  cases hv : u.validate with
  | error e =>
    rw [perform_write, Service.perform_write_refused hv]
    exact Aside.refl s
  | ok _ =>
    obtain ⟨answer, hreply, -, -⟩ := (RecordStore.Indistinct.refl hkeeps).commit u now
    obtain ⟨hevents, hbackend⟩ := write_of_now hv hreply v patience
    rw [hevents] at hnone
    rw [hbackend] at hsize
    cases answer with
    | ok a => cases hnone
    | error e =>
      have he : s.service.backend.isUnflushed e = false := by
        simpa [Event.replacements, Event.replacement?] using hnone
      rw [perform_write, Service.perform_write_accepted hv,
        Service.committing_of_now hreply patience]
      exact aside_withService (fun h => h.commit_left hreply he hsize) rfl id

/-- Where nothing marks the store, an operation is aside from all but its worker. -/
theorem aside_perform (hkeeps : s.service.backend.KeepsRecord) (ho : Owned owner s)
    {patience : Option Duration} {o : Operation} (hactor : o.actor owner s.current ≠ w)
    (hnames : Move.RespectsNames (ξ := Disturbance) owner (.use patience o))
    (hmarks : ∀ v u now, o = .write v u now → s.marks (.use patience o) = false) :
    Aside owner w s ((perform patience o).alone s).2 := by
  cases o with
  | get v bypass =>
    rw [perform_get]
    exact aside_get s (v.getD s.current) bypass patience
  | fetch =>
    rw [perform_fetch]
    exact aside_loaded s
  | write v u now => exact aside_write hkeeps (hmarks v u now rfl)
  | start v =>
    rw [perform_start]
    exact aside_started hactor s _
  | succeed v =>
    rw [perform_succeed]
    exact aside_finished hactor s
  | fail v =>
    rw [perform_fail]
    exact aside_finished hactor s
  | begin v name =>
    obtain rfl : v = owner name := hnames
    rw [perform_begin, beginUnit_alone]
    cases s.service.fetching patience with
    | none => exact aside_started hactor s none
    | some x =>
      have hstarted : Aside owner w s _ := aside_started hactor s (s.fetched? patience)
      exact hstarted.trans (aside_begun (hstarted.owned ho) hactor)
  | succeedUnit name | failUnit name | dropUnit name =>
    change Aside owner w s ((endUnit name patience).alone s).2
    rw [endUnit_alone]
    exact aside_closed ho hactor

/-! ## The same move in both runs -/

theorem AlikeFor.withService (h : AlikeFor owner w s t) {r q : Service RecordStore}
    (hbackend : RecordStore.Indistinct r.backend q.backend)
    (hentry : r.cache.peek? w = q.cache.peek? w)
    (hinvalidates : .invalidation ∈ r.listeners ∧ .invalidation ∈ q.listeners) :
    AlikeFor owner w (s.withService r) (t.withService q) :=
  { h with backend := hbackend, entry := hentry, invalidates := hinvalidates }

/-- An operation comes to the same in both sessions, which stay alike. -/
structure SameFor (owner : String → WorkerId) (w : WorkerId)
    (x y : Option Outcome × Session RecordStore) : Prop where
  outcome : x.1 = y.1
  alike : AlikeFor owner w x.2 y.2

theorem AlikeFor.loaded (h : AlikeFor owner w s t) :
    AlikeFor owner w (s.withService s.service.loaded) (t.withService t.service.loaded) :=
  h.aside_both (aside_loaded s) (aside_loaded t)

/-- A fetch has the same answer in both, at once. -/
theorem AlikeFor.fetching_eq (h : AlikeFor owner w s t) (patience : Option Duration) :
    ∃ answer, s.service.fetching patience = some (answer, patience) ∧
      t.service.fetching patience = some (answer, patience) := by
  obtain ⟨answer, hs, ht, -⟩ := h.backend.load
  exact ⟨answer, Service.fetching_of_now hs patience, Service.fetching_of_now ht patience⟩

theorem AlikeFor.fetched?_eq (h : AlikeFor owner w s t) (patience : Option Duration) :
    s.fetched? patience = t.fetched? patience := by
  obtain ⟨answer, hs, ht⟩ := h.fetching_eq patience
  change (s.service.fetching patience).bind _ = (t.service.fetching patience).bind _
  rw [hs, ht]

theorem AlikeFor.started (h : AlikeFor owner w s t) (v : WorkerId) (fetched : Option Settings) :
    AlikeFor owner w (s.withService (s.service.started v fetched))
      (t.withService (t.service.started v fetched)) := by
  refine h.withService h.loaded.backend ?_ h.invalidates
  rw [Service.peek?_started, Service.peek?_started, h.entry]

theorem AlikeFor.finished (h : AlikeFor owner w s t) (v : WorkerId) :
    AlikeFor owner w (s.finished v) (t.finished v) := by
  refine h.withService h.backend ?_ h.invalidates
  have hs := peek?_finished s v w
  rw [h.entry, ← peek?_finished t v w] at hs
  exact hs

theorem AlikeFor.closeUnit (h : AlikeFor owner w s t) (name : String) :
    AlikeFor owner w (s.closeUnit name) (t.closeUnit name) :=
  { h with
    units := fun n hn => by
      rw [unit?_closeUnit, unit?_closeUnit, h.units n hn]
    owned := ⟨h.owned.1.closeUnit name, h.owned.2.closeUnit name⟩ }

theorem AlikeFor.openUnit (h : AlikeFor owner w s t) (name : String) :
    AlikeFor owner w (s.openUnit name (owner name)) (t.openUnit name (owner name)) :=
  { h with
    units := fun n hn => by
      rw [unit?_openUnit, unit?_openUnit, h.units n hn]
    owned := ⟨h.owned.1.openUnit name, h.owned.2.openUnit name⟩ }

theorem AlikeFor.closed (h : AlikeFor owner w s t) {name : String} (hname : owner name = w) :
    AlikeFor owner w (s.closed name) (t.closed name) := by
  unfold Session.closed
  rw [h.units name hname]
  split
  · exact h.closeUnit name
  · exact (h.closeUnit name).finished _

theorem AlikeFor.begun (h : AlikeFor owner w s t) {name : String} (hname : owner name = w) :
    AlikeFor owner w (s.begun (owner name) name) (t.begun (owner name) name) := by
  unfold Session.begun
  rw [h.units name hname]
  split
  · exact h.openUnit name
  · exact (h.openUnit name).finished _

/-- Writes come to the same, whoever makes them. -/
theorem AlikeFor.write (h : AlikeFor owner w s t) (v : Option WorkerId) (u : Update) (now : Instant)
    (patience : Option Duration) :
    SameFor owner w ((perform patience (.write v u now)).alone s)
      ((perform patience (.write v u now)).alone t) := by
  rw [perform_write, perform_write, h.current_eq]
  cases hv : u.validate with
  | error e =>
    rw [Service.perform_write_refused hv, Service.perform_write_refused hv]
    exact ⟨rfl, h⟩
  | ok _ =>
    obtain ⟨answer, hs, ht, hnext⟩ := h.backend.commit u now
    rw [Service.perform_write_accepted hv, Service.perform_write_accepted hv,
      Service.committing_of_now hs patience, Service.committing_of_now ht patience]
    refine ⟨rfl, ?_⟩
    cases answer with
    | error e => exact h.withService hnext h.entry h.invalidates
    | ok a =>
      obtain ⟨hls, hlt⟩ := h.invalidates
      refine h.withService ?_ ?_ ⟨?_, ?_⟩
      · exact (Service.backend_notify _ _).symm ▸ (Service.backend_notify _ _).symm ▸ hnext
      · exact (Service.peek?_published (r := s.service.committed u now) hls _ w).trans
          (h.entry ▸ (Service.peek?_published (r := t.service.committed u now) hlt _ w).symm)
      · exact Service.mem_listeners_foldl_tell _ hls
      · exact Service.mem_listeners_foldl_tell _ hlt

/-- The worker's own reads give the same. -/
theorem AlikeFor.get (h : AlikeFor owner w s t) {v : Option WorkerId} (hv : v.getD s.current = w)
    (bypass : Bool) (patience : Option Duration) :
    SameFor owner w ((perform patience (.get v bypass)).alone s)
      ((perform patience (.get v bypass)).alone t) := by
  rw [perform_get, perform_get, ← h.current_eq, hv]
  refine ⟨?_, h.aside_both (aside_get s w bypass patience) (aside_get t w bypass patience)⟩
  obtain ⟨answer, hs, ht⟩ := h.fetching_eq patience
  cases bypass with
  | true => rw [Service.perform_get_bypass, Service.perform_get_bypass, hs, ht]
  | false =>
    have hentry := h.entry
    cases hheld : s.service.cache.peek? w with
    | some a =>
      rw [Service.perform_get_hit hheld, Service.perform_get_hit (hentry ▸ hheld)]
    | none =>
      rw [Service.perform_get_miss hheld, Service.perform_get_miss (hentry ▸ hheld), hs, ht]

/-- The worker's own operations come to the same. -/
theorem AlikeFor.perform (h : AlikeFor owner w s t) (patience : Option Duration) {o : Operation}
    (hactor : o.actor owner s.current = w)
    (hnames : Move.RespectsNames (ξ := Disturbance) owner (.use patience o)) :
    SameFor owner w ((perform patience o).alone s) ((perform patience o).alone t) := by
  obtain ⟨answer, hs, ht⟩ := h.fetching_eq patience
  have hfetched := h.fetched?_eq patience
  cases o with
  | get v bypass => exact h.get hactor bypass patience
  | write v u now => exact h.write v u now patience
  | fetch =>
    rw [perform_fetch, perform_fetch, hs, ht]
    exact ⟨rfl, h.loaded⟩
  | start v =>
    rw [perform_start, perform_start, hs, ht, hfetched]
    exact ⟨rfl, h.started v _⟩
  | succeed v =>
    rw [perform_succeed, perform_succeed]
    exact ⟨rfl, h.finished v⟩
  | fail v =>
    rw [perform_fail, perform_fail]
    exact ⟨rfl, h.finished v⟩
  | begin v name =>
    obtain rfl : v = owner name := hnames
    rw [perform_begin, perform_begin, beginUnit_alone, beginUnit_alone, hs, ht, hfetched]
    exact ⟨rfl, (h.started (owner name) _).begun hactor⟩
  | succeedUnit name | failUnit name | dropUnit name =>
    change SameFor owner w ((endUnit name patience).alone s) ((endUnit name patience).alone t)
    rw [endUnit_alone, endUnit_alone, h.units name hactor]
    exact ⟨rfl, h.closed hactor⟩

/-! ## Runs -/

/-- A move that is made in both. -/
theorem AlikeFor.afterMove (h : AlikeFor owner w s t) {m : Move Disturbance}
    (hnames : m.RespectsNames owner) :
    t.outcomesOf owner w m = s.outcomesOf owner w m ∧
      AlikeFor owner w (s.afterMove RecordStore.disturb m) (t.afterMove RecordStore.disturb m) := by
  cases m with
  | enter v => exact ⟨rfl, { h with scopes := congrArg (v :: ·) h.scopes }⟩
  | leave => exact ⟨rfl, { h with scopes := congrArg List.tail h.scopes }⟩
  | register l =>
    refine ⟨rfl, { h with invalidates := ?_ }⟩
    exact ⟨List.mem_append_left _ h.invalidates.1, List.mem_append_left _ h.invalidates.2⟩
  | outside d => exact ⟨rfl, { h with backend := h.backend.disturb d }⟩
  | use patience o =>
    dsimp only [outcomesOf]
    rw [← h.current_eq]
    by_cases hactor : o.actor owner s.current = w
    · have hsame := h.perform patience hactor hnames
      rw [if_pos hactor, if_pos hactor, hsame.outcome]
      exact ⟨rfl, hsame.alike⟩
    · rw [if_neg hactor, if_neg hactor]
      refine ⟨rfl, ?_⟩
      by_cases hwrite : ∃ v u now, o = .write v u now
      · obtain ⟨v, u, now, rfl⟩ := hwrite
        exact (h.write v u now patience).alike
      · -- what is no write is aside from the worker in both
        have hmarks (s : Session RecordStore) :
            ∀ v u now, o = .write v u now → s.marks (.use patience o) = false :=
          fun v u now ho => absurd ⟨v, u, now, ho⟩ hwrite
        have hactor' : o.actor owner t.current ≠ w := h.current_eq ▸ hactor
        exact h.aside_both
          (aside_perform h.backend.keepsRecord h.owned.1 hactor hnames (hmarks s))
          (aside_perform h.backend.symm.keepsRecord h.owned.2 hactor' hnames (hmarks t))

/-- A move that is left out in one of them. -/
theorem AlikeFor.leftOut (h : AlikeFor owner w s t) {m : Move Disturbance}
    (hnames : m.RespectsNames owner) (hstays : s.stays owner w m = false) :
    s.outcomesOf owner w m = [] ∧ AlikeFor owner w (s.afterMove RecordStore.disturb m) t := by
  cases m with
  | enter v | leave | register l | outside d => cases hstays
  | use patience o =>
    obtain ⟨hactor, hmarks⟩ := Bool.or_eq_false_iff.mp hstays
    replace hactor : o.actor owner s.current ≠ w := by simpa using hactor
    dsimp only [outcomesOf]
    rw [if_neg hactor]
    refine ⟨rfl, h.aside ?_⟩
    exact aside_perform h.backend.keepsRecord h.owned.1 hactor hnames fun _ _ _ _ => hmarks

/-- Runs that differ by what does not stay. -/
theorem AlikeFor.after (h : AlikeFor owner w s t) {ms : List (Move Disturbance)}
    (hnames : ∀ m ∈ ms, m.RespectsNames owner) :
    t.outcomes owner w (s.without owner w ms) = s.outcomes owner w ms ∧
      AlikeFor owner w (s.after RecordStore.disturb ms)
        (t.after RecordStore.disturb (s.without owner w ms)) := by
  induction ms generalizing s t with
  | nil => exact ⟨rfl, h⟩
  | cons m ms ih =>
    obtain ⟨hm, hnames⟩ := List.forall_mem_cons.mp hnames
    rw [without, outcomes]
    by_cases hstays : s.stays owner w m = true
    · obtain ⟨houtcomes, halike⟩ := h.afterMove hm
      obtain ⟨hrest, hlast⟩ := ih halike hnames
      rw [if_pos hstays, outcomes, houtcomes, hrest]
      exact ⟨rfl, hlast⟩
    · obtain ⟨houtcomes, halike⟩ := h.leftOut hm (Bool.not_eq_true _ ▸ hstays)
      obtain ⟨hrest, hlast⟩ := ih halike hnames
      rw [if_neg hstays, houtcomes]
      exact ⟨hrest, hlast⟩

theorem alikeFor_opened {store : RecordStore} (hkeeps : store.KeepsRecord) {config : Config}
    {r : Service RecordStore} (hr : Service.ofBackend store config = .ok r) (thread : WorkerId)
    (owner : String → WorkerId) (w : WorkerId) :
    AlikeFor owner w (opened r thread) (opened r thread) := by
  obtain rfl := Service.eq_of_ofBackend hr
  refine ⟨.refl hkeeps, rfl, rfl, rfl, fun _ _ => rfl, ?_, ?_⟩
  · exact ⟨List.mem_singleton_self _, List.mem_singleton_self _⟩
  · constructor <;> (intro name v hv; cases hv)

/-- A worker's operations come to the same in a run and in what is left of it without
what other workers have done, their marks on the store apart; and at every point its
entry and the record are the same in both. -/
theorem outcomes_without {store : RecordStore} (hkeeps : store.KeepsRecord) {config : Config}
    {r : Service RecordStore} (hr : Service.ofBackend store config = .ok r) (thread : WorkerId)
    {owner : String → WorkerId} {ms : List (Move Disturbance)}
    (hnames : ∀ m ∈ ms, m.RespectsNames owner) (w : WorkerId) :
    let s := opened r thread
    s.outcomes owner w (s.without owner w ms) = s.outcomes owner w ms ∧
      ∀ done rest, ms = done ++ rest →
        let t := s.after RecordStore.disturb done
        let t' := s.after RecordStore.disturb (s.without owner w done)
        s.without owner w ms = s.without owner w done ++ t.without owner w rest ∧
          t'.service.cache.peek? w = t.service.cache.peek? w ∧
          t'.service.backend.record? = t.service.backend.record? := by
  have halike := alikeFor_opened hkeeps hr thread owner w
  refine ⟨(halike.after hnames).1, ?_⟩
  rintro done rest rfl
  have hdone := (halike.after fun m hm => hnames m (List.mem_append_left _ hm)).2
  refine ⟨without_append owner w _ done rest, hdone.entry.symm, hdone.backend.record?_eq.symm⟩

/-- A worker starts, writes and reads while another one, whose unit is called `g`, does too,
also with the store switched off. -/
def amongOthers : List (Move Disturbance) :=
  [.use none (.begin ⟨2⟩ "g"), .use none (.write (some ⟨1⟩) { enableJira := some true } .epoch),
    .use none (.get (some ⟨2⟩) false), .use none (.start ⟨1⟩),
    .use none (.write (some ⟨2⟩) { maxUploadMb := some 5 } .epoch), .use none (.dropUnit "g"),
    .outside (.switch false), .use none (.write (some ⟨2⟩) { maxUploadMb := some 6 } .epoch),
    .use none (.get (some ⟨1⟩) false), .use none (.get (some ⟨1⟩) true)]

theorem outcomes_without_others :
    Service.ofBackend unwritten.backend {} = .ok unwritten ∧
      (∀ m ∈ amongOthers, m.RespectsNames fun _ => ⟨2⟩) ∧
      ((opened unwritten ⟨0⟩).without (fun _ => ⟨2⟩) ⟨1⟩ amongOthers).length = 6 ∧
      (opened unwritten ⟨0⟩).outcomes (fun _ => ⟨2⟩) ⟨1⟩
          ((opened unwritten ⟨0⟩).without (fun _ => ⟨2⟩) ⟨1⟩ amongOthers) =
        (opened unwritten ⟨0⟩).outcomes (fun _ => ⟨2⟩) ⟨1⟩ amongOthers := by
  have hr : Service.ofBackend unwritten.backend {} = .ok unwritten := rfl
  have hkeeps : unwritten.backend.KeepsRecord := trivial
  have hnames : ∀ m ∈ amongOthers, m.RespectsNames fun _ => ⟨2⟩ := by
    simp [amongOthers, Move.RespectsNames]
  exact ⟨hr, hnames, by decide +kernel, (outcomes_without hkeeps hr ⟨0⟩ hnames ⟨1⟩).1⟩

/-- The record that a path turns back to through a directory that is missing. -/
def hidden : Settings :=
  { maxUploadMb := 7, version := 3 }

/-- A write of the second worker, and then a bypassing read of the first. -/
def writeOfAnother : Move Disturbance :=
  .use none (.write (some ⟨2⟩) switchedOn .epoch)

def ownRead : Move Disturbance :=
  .use none (.get (some ⟨1⟩) true)

/-- What the read comes to by itself. -/
def readAlone (path : String) (tree : Tree) : List (Option Outcome) :=
  (opened (onFile path tree) ⟨0⟩).outcomes (fun _ => ⟨2⟩) ⟨1⟩ [ownRead]

/-- Whether the write is committed, and what the read comes to behind it. -/
def readBehind (path : String) (tree : Tree) : List Commit × List (Option Outcome) :=
  (Event.commits ((opened (onFile path tree) ⟨0⟩).events writeOfAnother),
    (opened (onFile path tree) ⟨0⟩).outcomes (fun _ => ⟨2⟩) ⟨1⟩ [writeOfAnother, ownRead])

theorem outcomes_ownRead {s : Session RecordStore} {path : String} {tree : Tree}
    (h : s.service.backend = ⟨.file path, tree⟩) (owner : String → WorkerId) :
    s.outcomes owner ⟨1⟩ [ownRead] =
      [some (.settings (Course.orDefault (FileStore.recordAt path tree)))] := by
  have hload : (Backend.load s.service.backend).2 = .now (FileStore.recordAt path tree) := by
    rw [h, RecordStore.load_file]
  have hoperation : s.outcomes owner ⟨1⟩ [ownRead] =
      [((perform none (.get (some ⟨1⟩) true)).alone s).1] := rfl
  rw [hoperation, perform_get, Service.perform_get_bypass,
    Service.fetching_of_now hload none]
  rfl

theorem readAlone_eq (path : String) (tree : Tree) :
    readAlone path tree =
      [some (.settings (Course.orDefault (FileStore.recordAt path tree)))] :=
  outcomes_ownRead rfl _

theorem readBehind_eq {path : String} {tree : Tree} {e : SettingsError} {after : Settings}
    (hanswer : (FileStore.commit path switchedOn .epoch tree).1 = .error e)
    (hafter : FileStore.recordAt path (FileStore.commit path switchedOn .epoch tree).2 =
      .ok after) :
    readBehind path tree = ([], [some (.settings (.ok after))]) := by
  let s := opened (onFile path tree) ⟨0⟩
  have haccepted : switchedOn.validate = .ok () := rfl
  have hstore := RecordStore.commit_file path tree switchedOn .epoch
  have hreply : (Backend.commit s.service.backend switchedOn .epoch).2 = .now (.error e) :=
    (congrArg Prod.snd hstore).trans (congrArg Reply.now hanswer)
  obtain ⟨hevents, hbackend⟩ := write_of_now (s := s) haccepted hreply (some ⟨2⟩) none
  have hbehind : s.outcomes (fun _ => ⟨2⟩) ⟨1⟩ [writeOfAnother, ownRead] =
      ((perform none (.write (some ⟨2⟩) switchedOn .epoch)).alone s).2.outcomes (fun _ => ⟨2⟩) ⟨1⟩
        [ownRead] := rfl
  refine Prod.ext ?_ ?_
  · change Event.commits (s.eventsOf none (.write (some ⟨2⟩) switchedOn .epoch)) = []
    rw [hevents]
    rfl
  · refine (hbehind.trans (outcomes_ownRead (hbackend.trans (congrArg Prod.fst hstore)) _)).trans ?_
    rw [hafter]
    rfl

/-- A write that is not committed lets the other worker read what it would not have read: the
record that the path turns back to through the directory that the write has made; or the
record as the write has left it, where the directory cannot be flushed after it, and where the
file that cannot be flushed is the record's own. -/
theorem outcomes_amiss :
    (readAlone "x/../y" (blocked hidden.prettyText.toUTF8) = [some (.settings (.ok .default))] ∧
        readBehind "x/../y" (blocked hidden.prettyText.toUTF8) =
          ([], [some (.settings (.ok hidden))])) ∧
      (readAlone "s.json" .unlistable = [some (.settings (.ok .default))] ∧
        readBehind "s.json" .unlistable =
          ([], [some (.settings (.ok (switchedOn.apply .default .epoch)))])) ∧
      (readAlone "s.json" (FileStore.linkedUnflushable Settings.default.prettyText.toUTF8) =
          [some (.settings (.ok .default))] ∧
        readBehind "s.json" (FileStore.linkedUnflushable Settings.default.prettyText.toUTF8) =
          ([], [some (.settings (.ok (switchedOn.apply .default .epoch)))])) ∧
      hidden ≠ .default ∧ switchedOn.apply .default .epoch ≠ .default := by
  have hblocked := commit_blocked hidden.prettyText.toUTF8 switchedOn .epoch
  have hunlistable := FileStore.commit_unlistable switchedOn .epoch
  have hlinked := FileStore.commit_linkedUnflushable switchedOn .epoch
  refine ⟨⟨?_, ?_⟩, ⟨?_, ?_⟩, ⟨?_, ?_⟩, by decide, by decide⟩
  · rw [readAlone_eq, recordAt_blocked]
    rfl
  · refine readBehind_eq hblocked.1 ?_
    rw [hblocked.2]
    have hregular : hidden.IsRegular := by
      rintro t ⟨⟩
    exact FileStore.recordAt_of_readBytes hregular (readBytes_blocked _)
  · rw [readAlone_eq]
    rfl
  · exact readBehind_eq hunlistable.1 (FileStore.record?_eq_some_iff.mp hunlistable.2)
  · rw [readAlone_eq, FileStore.recordAt_of_readBytes Settings.isRegular_default
      (FileStore.readBytes_linkedUnflushable _)]
    rfl
  · exact readBehind_eq hlinked.1 (FileStore.record?_eq_some_iff.mp hlinked.2)

end Session
end ScopedSettings
