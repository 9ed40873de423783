/-
Reads are seen by nothing else.

Leave any of the reads out of a run: everything that stays comes to the same, and
at every point the entries, the counters of loads and clears and the record are
the same (`Session.results_without_reads`). A read leaves two traces, and neither
has a say in anything. Memory counts how often it is asked, and the answers do not
depend on it (`RecordStore.Unasked`); the cache counts hits and misses, and none of
the operations of a session looks at the counters (`Course.Heedless`), so the two
runs are in step once these are set aside (`Session.unread`). A bypassing read has
no part in the cache, and then the counters of hits and misses are the same too.
-/
import ScopedSettings.Proofs.Service.InStep
import ScopedSettings.Proofs.Service.LeftOut
import ScopedSettings.Proofs.Store.FailedCommits

namespace ScopedSettings

variable {β γ ξ : Type}

namespace Move

def isRead : Move ξ → Bool
  | .use _ (.get _ _) | .use _ .fetch => true
  | _ => false

/-- Is a move a read that asks the store in any case? -/
def isBypassing : Move ξ → Bool
  | .use _ (.get _ true) | .use _ .fetch => true
  | _ => false

end Move

/-! ## Stores, but for how often they were asked -/

namespace RecordStore

/-- Stores that are equal but for the number of loads that memory counts. -/
inductive Unasked : RecordStore → RecordStore → Prop
  | memory {m : MemoryStore} {tree : Files.Tree} (loads : Nat) :
    Unasked ⟨.memory m, tree⟩ ⟨.memory { m with loads }, tree⟩
  | file {path : String} {tree : Files.Tree} : Unasked ⟨.file path, tree⟩ ⟨.file path, tree⟩

variable {r q : RecordStore}

theorem Unasked.refl (h : ∀ s, r.keeper ≠ .scripted s) : Unasked r r := by
  obtain ⟨keeper, tree⟩ := r
  cases keeper with
  | memory m => exact .memory m.loads
  | scripted s => exact absurd rfl (h s)
  | file path => exact .file

theorem Unasked.record?_eq (h : Unasked r q) : q.record? = r.record? := by
  cases h <;> rfl

theorem Unasked.tree_eq (h : Unasked r q) : q.tree = r.tree := by
  cases h <;> rfl

/-- Asking makes no difference. -/
theorem Unasked.load_left (h : Unasked r q) : Unasked (Backend.load r).1 q := by
  cases h with
  | @memory m tree loads => exact .memory (m := { m with loads := m.loads + 1 }) loads
  | file =>
    rw [load_file]
    exact .file

theorem alike_unasked : Backend.Alike Unasked where
  load h := by
    cases h with
    | @memory m tree loads =>
      exact ⟨m.answer, rfl, rfl, .memory (m := { m with loads := m.loads + 1 }) (loads + 1)⟩
    | @file path tree =>
      refine ⟨FileStore.recordAt path tree, ?_⟩
      rw [load_file]
      exact ⟨rfl, rfl, .file⟩
  commit h u now := by
    cases h with
    | @memory m tree loads =>
      have hcommit (m : MemoryStore) : Backend.commit (RecordStore.mk (.memory m) tree) u now =
          (⟨.memory (m.commit u now).1, tree⟩, (m.commit u now).2) := rfl
      rw [hcommit, hcommit, MemoryStore.commit_eq, MemoryStore.commit_eq]
      split
      · exact ⟨_, rfl, rfl, .memory loads⟩
      · exact ⟨_, rfl, rfl, .memory loads⟩
    | @file path tree => exact ⟨_, rfl, rfl, .file⟩

theorem Unasked.disturb (h : Unasked r q) (d : Disturbance) :
    Unasked (r.disturb d) (q.disturb d) := by
  cases h with
  | memory loads => cases d <;> exact .memory loads
  | file => cases d <;> exact .file

end RecordStore

/-! ## Caches, but for hits and misses -/

namespace ScopeCache

variable {α : Type}

/-- The cache as if it had never been read. -/
def unread (c : ScopeCache α) : ScopeCache α :=
  { c with hits := 0, misses := 0 }

theorem unread_get (c : ScopeCache α) (w : WorkerId) : (c.get w).2.unread = c.unread := by
  unfold get
  split <;> rfl

theorem clear_unread (c : ScopeCache α) (w : WorkerId) :
    c.unread.clear w = ((c.clear w).1, (c.clear w).2.unread) := by
  have hcontains : c.unread.contains w = c.contains w := rfl
  unfold clear
  rw [hcontains]
  split <;> rfl

end ScopeCache

namespace Service

/-- The service as if its cache had never been read. -/
def unread (r : Service β) : Service β :=
  { r with cache := r.cache.unread }

variable {r q : Service β}

theorem tell_unread (r : Service β) (e : WriteEvent) (l : Listener) :
    r.unread.tell e l = (r.tell e l).unread := by
  cases l with
  | invalidation =>
    change { r with cache := (r.cache.unread.clear e.writer).2 } = _
    rw [ScopeCache.clear_unread]
    rfl
  | recorder name | growing name => rfl

theorem notify_unread (r : Service β) (e : WriteEvent) : r.unread.notify e = (r.notify e).unread :=
  List.foldl_hom unread fun r l => tell_unread r e l

theorem abandon_unread (r : Service β) (held : List WorkerId) :
    r.unread.abandon held = (r.abandon held).unread := by
  have hfold : held.foldl (fun c w => (c.clear w).2) r.cache.unread =
      (held.foldl (fun c w => (c.clear w).2) r.cache).unread :=
    List.foldl_hom ScopeCache.unread fun c w => by rw [ScopeCache.clear_unread]
  exact congrArg (fun c => { r with cache := c }) hfold

/-- Services in step, as if their caches had never been read. -/
def InStepUnread (B : β → β → Prop) (r q : Service β) : Prop :=
  r.unread.InStep B q.unread

theorem InStep.inStepUnread {B : β → β → Prop} (h : InStep B r q) : InStepUnread B r q := by
  refine ⟨h.backend, ?_⟩
  rw [h.eq_onStore]
  rfl

/-- A read of the cache more makes no difference. -/
theorem InStepUnread.get_left {B : β → β → Prop} (h : InStepUnread B r q) (w : WorkerId) :
    InStepUnread B { r with cache := (r.cache.get w).2 } q := by
  change InStep B { r with cache := (r.cache.get w).2.unread } q.unread
  rw [ScopeCache.unread_get]
  exact h

variable [Backend β]

/-- An act that is not to look at the counters does the same on a service as if it had never
been read. -/
theorem carryOut_unread (r : Service β) {a : Act} (ha : a ≠ .stats) :
    (r.unread.carryOut a).1 = (r.carryOut a).1 ∧
      (r.unread.carryOut a).2.unread = (r.carryOut a).2.unread := by
  cases a with
  | stats => exact absurd rfl ha
  | enroll | keep w s | fetch | commit u now | announce e => exact ⟨rfl, rfl⟩
  | lookUp w =>
    constructor
    · change atOnce (r.cache.unread.get w).1 = atOnce (r.cache.get w).1
      rw [ScopeCache.get_fst, ScopeCache.get_fst]
      rfl
    · change { r with cache := (r.cache.unread.get w).2.unread } =
        { r with cache := (r.cache.get w).2.unread }
      rw [ScopeCache.unread_get, ScopeCache.unread_get]
      rfl
  | forget w =>
    have hclear := ScopeCache.clear_unread r.cache w
    constructor
    · change atOnce (r.cache.unread.clear w).1 = atOnce (r.cache.clear w).1
      rw [hclear]
    · change { r with cache := (r.cache.unread.clear w).2.unread } =
        { r with cache := (r.cache.clear w).2.unread }
      rw [hclear]
      rfl
  | notify e =>
    refine ⟨rfl, ?_⟩
    change (r.unread.notify e).unread = (r.notify e).unread
    rw [notify_unread]
    rfl

theorem similar_inStepUnread {B : β → β → Prop} (hB : Backend.Alike B) :
    Similar (InStepUnread B) where
  carryOut {r q} h a ha := by
    obtain ⟨hr, hr'⟩ := r.carryOut_unread ha
    obtain ⟨hq, hq'⟩ := q.carryOut_unread ha
    obtain ⟨hanswer, hafter⟩ := h.carryOut hB a
    refine ⟨?_, ?_⟩
    · rw [← hr, ← hq, hanswer]
    · unfold InStepUnread
      rw [← hr', ← hq']
      exact hafter.inStepUnread
  abandon {r q} h held := by
    unfold InStepUnread
    rw [← abandon_unread, ← abandon_unread]
    exact (similar_inStep hB).abandon h held
  addListener h l := (similar_inStep hB).addListener h l

end Service

namespace Session

open RecordStore (Unasked alike_unasked)

theorem afterMove_of_isBypassing [Backend β] (change : ξ → β → β) (s : Session β) {m : Move ξ}
    (h : m.isBypassing = true) : s.afterMove change m = s.withService s.service.loaded := by
  cases m with
  | enter w | leave | register l | outside x => cases h
  | use patience o =>
    change ((perform patience o).alone s).2 = _
    cases o with
    | get w bypass =>
      obtain rfl : bypass = true := by
        cases bypass with
        | true => rfl
        | false => cases h
      rw [perform_get, Service.perform_get_bypass]
    | fetch => rw [perform_fetch]
    | write w u now | start w | succeed w | fail w | begin w name | succeedUnit name
    | failUnit name | dropUnit name => cases h

/-- A read that does not bypass the cache finds an entry, or asks the store. -/
theorem afterMove_get_cached [Backend β] (change : ξ → β → β) (s : Session β)
    (patience : Option Duration) (w : Option WorkerId) :
    let c := (s.service.cache.get (w.getD s.current)).2
    s.afterMove change (.use patience (.get w false)) =
        s.withService { s.service with cache := c } ∨
      s.afterMove change (.use patience (.get w false)) =
        s.withService { s.service.loaded with cache := c } := by
  intro c
  change ((perform patience (.get w false)).alone s).2 = _ ∨
    ((perform patience (.get w false)).alone s).2 = _
  rw [perform_get]
  cases hentry : s.service.cache.peek? (w.getD s.current) with
  | some found =>
    left
    rw [Service.perform_get_hit hentry]
  | none =>
    right
    rw [Service.perform_get_miss hentry]

/-! ## Runs without reads -/

section withoutReads

variable {change : ξ → RecordStore → RecordStore} {s t : Session RecordStore}

/-- A read that is left out, the counters of hits and misses aside. -/
theorem Over.read_left (h : Over (Service.InStepUnread Unasked) s t) {m : Move ξ}
    (hm : m.isRead = true) :
    Over (Service.InStepUnread Unasked) (s.afterMove change m) t := by
  have hservice := h.service
  have hloaded : Service.InStepUnread Unasked s.service.loaded t.service :=
    hservice.withBackend hservice.backend.load_left
  by_cases hbypass : m.isBypassing = true
  · rw [afterMove_of_isBypassing change s hbypass]
    exact { h with service := hloaded }
  · obtain ⟨patience, w, rfl⟩ : ∃ patience w, m = .use patience (.get w false) := by
      cases m with
      | enter w | leave | register l | outside x => cases hm
      | use patience o =>
        cases o with
        | get w bypass =>
          cases bypass with
          | true => exact absurd rfl hbypass
          | false => exact ⟨patience, w, rfl⟩
        | fetch => exact absurd rfl hbypass
        | write w u now | start w | succeed w | fail w | begin w name | succeedUnit name
        | failUnit name | dropUnit name => cases hm
    rcases afterMove_get_cached change s patience w with hafter | hafter
    · rw [hafter]
      exact { h with service := hservice.get_left (w.getD s.current) }
    · rw [hafter]
      exact { h with service := hloaded.get_left (w.getD s.current) }

/-- A bypassing read that is left out. -/
theorem Over.bypassing_left (h : Over (Service.InStep Unasked) s t) {m : Move ξ}
    (hm : m.isBypassing = true) : Over (Service.InStep Unasked) (s.afterMove change m) t := by
  rw [afterMove_of_isBypassing change s hm]
  exact { h with service := h.service.withBackend h.service.backend.load_left }

theorem over_self (hstore : ∀ sc, s.service.backend.keeper ≠ .scripted sc) :
    Over (Service.InStep Unasked) s s :=
  ⟨⟨.refl hstore, rfl⟩, rfl, rfl, rfl⟩

variable (hchange : ∀ x r q, r.Unasked q → (change x r).Unasked (change x q))
include hchange

/-- Runs that differ by reads. -/
theorem results_of_reads (hstore : ∀ sc, s.service.backend.keeper ≠ .scripted sc) {ms : Moves ξ}
    (hreads : ∀ m ∈ ms, m.2 = false → m.1.isRead = true) :
    s.results change ms.kept = s.resultsOfKept change ms ∧
      Over (Service.InStepUnread Unasked) (s.after change ms.all) (s.after change ms.kept) := by
  have hself := over_self hstore
  have hleft : s.LeavesOut change (fun _ m => m.isRead = true) ms := LeavesOut.of_forall hreads
  refine results_kept (R := Over (Service.InStepUnread Unasked)) ?_ ?_
    { hself with service := hself.service.inStepUnread } hleft
  · intro s t m h
    refine (move_related (Service.similar_inStepUnread alike_unasked) ?_ m).alone h
    exact fun x r q hr => hr.withBackend (hchange x _ _ hr.backend)
  · exact fun s t m hm h => h.read_left hm

/-- Runs that differ by bypassing reads. -/
theorem over_of_bypassing (hstore : ∀ sc, s.service.backend.keeper ≠ .scripted sc) {ms : Moves ξ}
    (hreads : ∀ m ∈ ms, m.2 = false → m.1.isBypassing = true) :
    Over (Service.InStep Unasked) (s.after change ms.all) (s.after change ms.kept) := by
  have hleft : s.LeavesOut change (fun _ m => m.isBypassing = true) ms :=
    LeavesOut.of_forall hreads
  refine (results_kept (R := Over (Service.InStep Unasked)) ?_ ?_ (over_self hstore) hleft).2
  · intro s t m h
    refine (move_related (Service.similar_inStep alike_unasked) ?_ m).alone h
    exact fun x r q hr => hr.withBackend (hchange x _ _ hr.backend)
  · exact fun s t m hm h => h.bypassing_left hm

end withoutReads

/-- Reads left out of a run on memory or a file, whatever the file holds, change the outcome
of nothing that stays; at every point the entries, the counters of loads and clears and the
record are the same, and so are the counters of hits and misses where only bypassing reads
have been left out before it. What happens to the store from outside may be anything that
does not depend on how often memory has been asked. -/
theorem results_without_reads {change : ξ → RecordStore → RecordStore}
    (hchange : ∀ x r q, r.Unasked q → (change x r).Unasked (change x q)) {s : Session RecordStore}
    (hstore : ∀ sc, s.service.backend.keeper ≠ .scripted sc) {ms : Moves ξ}
    (hreads : ∀ m ∈ ms, m.2 = false → m.1.isRead = true) :
    s.results change ms.kept = s.resultsOfKept change ms ∧
      ∀ done rest : Moves ξ, ms = done ++ rest →
        let t := s.after change done.all
        let t' := s.after change done.kept
        t'.service.cache.entries = t.service.cache.entries ∧
          t'.service.cache.loads = t.service.cache.loads ∧
          t'.service.cache.clears = t.service.cache.clears ∧
          t'.service.backend.record? = t.service.backend.record? ∧
          t'.service.backend.tree = t.service.backend.tree ∧
          ((∀ m ∈ done, m.2 = false → m.1.isBypassing = true) →
            t'.service.cache = t.service.cache) := by
  refine ⟨(results_of_reads hchange hstore hreads).1, ?_⟩
  rintro done rest rfl t t'
  have hdone := (results_of_reads hchange hstore fun m hm =>
    hreads m (List.mem_append_left _ hm)).2.service
  have hcache : t'.service.cache.unread = t.service.cache.unread :=
    congrArg Service.cache hdone.eq_onStore
  refine ⟨?_, ?_, ?_, hdone.backend.record?_eq, hdone.backend.tree_eq, ?_⟩
  · exact (congrArg ScopeCache.entries hcache :)
  · exact (congrArg ScopeCache.loads hcache :)
  · exact (congrArg ScopeCache.clears hcache :)
  · intro hbypassing
    have hservice := (over_of_bypassing hchange hstore hbypassing).service
    exact (congrArg Service.cache hservice.eq_onStore :)

/-- A service whose record is in memory, the defaults to begin with. -/
def remembering : Service RecordStore where
  backend := { keeper := .memory { record := some .default }, tree := {} }
  listeners := [.invalidation]

/-- A unit with reads of every kind in and around it, also with the store switched off; one
of the reads stays. -/
def readsBetween : Moves Disturbance :=
  [(.use none .fetch, false), (.use none (.begin ⟨1⟩ "a"), true), (.enter ⟨1⟩, true),
    (.use none (.get none false), false), (.use none (.get (some ⟨2⟩) false), false),
    (.use none (.write (some ⟨2⟩) { maxUploadMb := some 5 } .epoch), true), (.leave, true),
    (.outside (.switch false), true), (.use none (.get (some ⟨1⟩) true), false),
    (.use none (.get (some ⟨1⟩) false), true), (.use none (.succeedUnit "a"), true)]

theorem results_without_reads_between :
    (∀ sc, remembering.backend.keeper ≠ .scripted sc) ∧
      (∀ m ∈ readsBetween, m.2 = false → m.1.isRead = true) ∧ readsBetween.kept.length = 7 ∧
      (opened remembering ⟨0⟩).results RecordStore.disturb readsBetween.kept =
        (opened remembering ⟨0⟩).resultsOfKept RecordStore.disturb readsBetween := by
  have hstore : ∀ sc, remembering.backend.keeper ≠ .scripted sc := fun _ => RecordKeeper.noConfusion
  have hreads : ∀ m ∈ readsBetween, m.2 = false → m.1.isRead = true := by
    simp [readsBetween, Move.isRead]
  have hchange (d : Disturbance) (r q : RecordStore) (h : r.Unasked q) :
      (r.disturb d).Unasked (q.disturb d) := h.disturb d
  exact ⟨hstore, hreads, rfl,
    (results_without_reads (s := opened remembering ⟨0⟩) hchange hstore hreads).1⟩

end Session
end ScopedSettings
