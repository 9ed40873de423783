/-
The ledger of a service: what its operations have to do with entries.

An operation is posted by what it comes to and not by the counters (`Posting`): a start by
whether its worker had an entry and whether its fetch succeeded, an end and a committed
write by whether there was an entry, a read by whether it was answered without a call to
the backend, which shows in the acts that it carries out (`Service.acts`). A cache is
reconciled with a ledger if its counters are the sums of the postings and its entries are
balanced (`Reconciled`). Every operation keeps this, for a start has cleared its worker's
entry before it keeps a record, and nothing else keeps one.
-/
import ScopedSettings.Proofs.Cache.Balance
import ScopedSettings.Proofs.Cache.Contents
import ScopedSettings.Service.Undertaking

namespace ScopedSettings

/-- What an operation has to do with the entry of its worker. -/
inductive Posting
  /-- A unit started: had its worker an entry, and did its fetch succeed? -/
  | started (found fetched : Bool)
  | ended (found : Bool)
  /-- A read that does not bypass the cache: was it answered without a call to the backend? -/
  | read (uncalled : Bool)
  | committed (found : Bool)
  deriving DecidableEq

namespace Posting

def isFetched : Posting → Bool
  | .started _ fetched => fetched
  | _ => false

def isRead : Posting → Bool
  | .read _ => true
  | _ => false

def isUncalled : Posting → Bool
  | .read uncalled => uncalled
  | _ => false

def hasFound : Posting → Bool
  | .started found _ | .ended found | .committed found => found
  | .read _ => false

end Posting

/-- Does an act call the backend? -/
def Act.callsBackend : Act → Bool
  | .fetch | .commit _ _ => true
  | _ => false

namespace Service

variable {β : Type}

/-- The postings of the units of some workers ending, one after another. -/
def endings (c : ScopeCache Settings) : List WorkerId → List Posting
  | [] => []
  | w :: ws => .ended (c.contains w) :: endings (c.clear w).2 ws

variable [Backend β]

/-- The acts that are carried out when a course is performed. -/
def acts : Course α → Option Duration → Service β → List Act
  | .done _, _, _ => []
  | .step c next, patience, r =>
    c.act ::
      match r.carryOut c.act with
      | (none, _) => []
      | (some (waited, x), r) =>
        match spend patience waited with
        | some patience => acts (next x) patience r
        | none => []

/-- What is posted when an operation is carried out now. -/
def postings (r : Service β) (patience : Option Duration) : Undertaking → List Posting
  | .get w false =>
    [.read ((r.perform (Course.get w false) patience).1.isSome &&
      !(acts (Course.get w false) patience r).any Act.callsBackend)]
  | .write w u now =>
    match (r.perform (Course.write w u now) patience).1 with
    | some (.ok _, _) => [.committed (r.cache.contains w)]
    | _ => []
  | .start w => [.started (r.cache.contains w) (r.fetched? patience).isSome]
  | .finish w => [.ended (r.cache.contains w)]
  | .enroll | .stats | .get _ true | .fetch => []

end Service

/-! ## Caches and ledgers -/

/-- Do the counters of a cache say what a ledger does, its entries balancing them? -/
structure Reconciled (ps : List Posting) (c : ScopeCache Settings) : Prop where
  balanced : ScopeCache.Balanced .empty c
  loads_eq : c.loads = ps.countP Posting.isFetched
  reads_eq : c.hits + c.misses = ps.countP Posting.isRead
  hits_eq : c.hits = ps.countP Posting.isUncalled
  clears_eq : c.clears = ps.countP Posting.hasFound

namespace Reconciled

variable {ps : List Posting} {c : ScopeCache Settings}

theorem empty : Reconciled [] .empty :=
  ⟨.refl List.nodup_nil, rfl, rfl, rfl, rfl⟩

/-- A posting that says how the counters change keeps a cache reconciled. -/
theorem post (h : Reconciled ps c) {p : Posting} {c' : ScopeCache Settings}
    (hbalanced : ScopeCache.Balanced .empty c') (hloads : c'.loads = c.loads + p.isFetched.toNat)
    (hreads : c'.hits + c'.misses = c.hits + c.misses + p.isRead.toNat)
    (hhits : c'.hits = c.hits + p.isUncalled.toNat)
    (hclears : c'.clears = c.clears + p.hasFound.toNat) : Reconciled (ps ++ [p]) c' := by
  have hcount (q : Posting → Bool) :
      (ps ++ [p]).countP q = ps.countP q + (q p).toNat := by
    rw [List.countP_append, List.countP_singleton]
    cases q p <;> rfl
  refine ⟨hbalanced, ?_, ?_, ?_, ?_⟩
  · rw [hloads, h.loads_eq, hcount]
  · rw [hreads, h.reads_eq, hcount]
  · rw [hhits, h.hits_eq, hcount]
  · rw [hclears, h.clears_eq, hcount]

theorem get (h : Reconciled ps c) (w : WorkerId) :
    Reconciled (ps ++ [.read (c.contains w)]) (c.get w).2 := by
  have hbalanced := h.balanced.get w
  unfold ScopeCache.contains
  unfold ScopeCache.get at hbalanced ⊢
  cases hw : c.peek? w with
  | some s =>
    rw [hw] at hbalanced
    exact h.post hbalanced rfl (Nat.add_right_comm c.hits 1 c.misses) rfl rfl
  | none =>
    rw [hw] at hbalanced
    exact h.post hbalanced rfl rfl rfl rfl

theorem clear_counters (c : ScopeCache Settings) (w : WorkerId) :
    (c.clear w).2.loads = c.loads ∧ (c.clear w).2.hits = c.hits ∧
      (c.clear w).2.misses = c.misses ∧
      (c.clear w).2.clears = c.clears + (c.contains w).toNat := by
  unfold ScopeCache.clear
  cases c.contains w <;> exact ⟨rfl, rfl, rfl, rfl⟩

/-- Whatever takes a worker's entry is posted with whether there was one. -/
theorem clear (h : Reconciled ps c) (w : WorkerId) {p : Posting} (hfetched : p.isFetched = false)
    (hread : p.isRead = false) (huncalled : p.isUncalled = false)
    (hfound : p.hasFound = c.contains w) : Reconciled (ps ++ [p]) (c.clear w).2 := by
  obtain ⟨hloads, hhits, hmisses, hclears⟩ := clear_counters c w
  refine h.post (h.balanced.clear w) ?_ ?_ ?_ ?_
  · rw [hloads, hfetched]
    rfl
  · rw [hhits, hmisses, hread]
    rfl
  · rw [hhits, huncalled]
    rfl
  · rw [hclears, hfound]

theorem finish (h : Reconciled ps c) (w : WorkerId) :
    Reconciled (ps ++ [.ended (c.contains w)]) (c.clear w).2 :=
  h.clear w rfl rfl rfl rfl

/-- A start clears its worker's entry, so that keeping a record adds one. -/
theorem start (h : Reconciled ps c) (w : WorkerId) (fetched : Option Settings) :
    Reconciled (ps ++ [.started (c.contains w) fetched.isSome])
      (match fetched with
        | some s => (c.clear w).2.put w s
        | none => (c.clear w).2) := by
  cases fetched with
  | none => exact h.clear w rfl rfl rfl rfl
  | some s =>
    obtain ⟨hloads, hhits, hmisses, hclears⟩ := clear_counters c w
    refine h.post ((h.balanced.clear w).put (c.peek?_clear_self w) s) ?_ ?_ ?_ ?_
    · change (c.clear w).2.loads + 1 = _
      rw [hloads]
      rfl
    · change (c.clear w).2.hits + (c.clear w).2.misses = _
      rw [hhits, hmisses]
      rfl
    · exact hhits
    · exact hclears

theorem endings (h : Reconciled ps c) (ws : List WorkerId) :
    Reconciled (ps ++ Service.endings c ws) (ws.foldl (fun c w => (c.clear w).2) c) := by
  induction ws generalizing ps c with
  | nil => simpa [Service.endings] using h
  | cons w ws ih =>
    have hrest := ih (h.finish w)
    rw [List.append_assoc] at hrest
    exact hrest

end Reconciled

/-! ## Operations -/

theorem ScopeCache.clear_of_none {c : ScopeCache Settings} {w : WorkerId} (h : c.peek? w = none) :
    (c.clear w).2 = c := by
  unfold ScopeCache.clear ScopeCache.contains
  rw [h]
  rfl

namespace Service

variable {β : Type}

theorem cache_foldl_tell_none {e : WriteEvent} (ls : List Listener) {r : Service β}
    (h : r.cache.peek? e.writer = none) : (ls.foldl (tell e) r).cache = r.cache := by
  induction ls generalizing r with
  | nil => rfl
  | cons l ls ih =>
    have htell : (r.tell e l).cache = r.cache := by
      cases l with
      | invalidation => exact ScopeCache.clear_of_none h
      | recorder name | growing name => rfl
    refine (ih ?_).trans htell
    rw [htell]
    exact h

/-- Telling of a write clears its writer's entry, where the invalidation listener is
registered; it finds no entry if it is registered once more. -/
theorem cache_foldl_tell {e : WriteEvent} {ls : List Listener} (h : .invalidation ∈ ls)
    (r : Service β) : (ls.foldl (tell e) r).cache = (r.cache.clear e.writer).2 := by
  induction ls generalizing r with
  | nil => cases h
  | cons l ls ih =>
    cases l with
    | invalidation => exact cache_foldl_tell_none ls (ScopeCache.peek?_clear_self _ _)
    | recorder name | growing name => exact ih (List.mem_of_ne_of_mem (by simp) h) _

variable [Backend β] {r : Service β} {ps : List Posting}

theorem acts_lookUp_bind (w : WorkerId) (f : Option Settings → Course γ)
    (patience : Option Duration) (r : Service β) :
    acts (Course.lookUp w >>= f) patience r =
      .lookUp w :: acts (f (r.cache.peek? w)) patience { r with cache := (r.cache.get w).2 } := by
  simp [Course.lookUp, Course.act, Procedure.act, acts, carryOut, atOnce]

/-- A read calls the backend just where there is no entry. -/
theorem callsBackend_get (w : WorkerId) (patience : Option Duration) (r : Service β) :
    (acts (Course.get w false) patience r).any Act.callsBackend = !r.cache.contains w := by
  unfold Course.get ScopeCache.contains
  simp only [Bool.false_eq_true, if_false]
  rw [acts_lookUp_bind]
  cases r.cache.peek? w with
  | none =>
    simp [Course.fetchOrDefault, Course.fetch, Course.act, Procedure.act, acts, Act.callsBackend]
  | some s => simp [acts, Act.callsBackend]

theorem postings_get (r : Service β) (patience : Option Duration) (w : WorkerId) :
    r.postings patience (.get w false) = [.read (r.cache.contains w)] := by
  simp only [postings, callsBackend_get]
  unfold ScopeCache.contains
  cases hw : r.cache.peek? w with
  | none => simp
  | some s =>
    rw [perform_get_hit hw]
    rfl

theorem cache_perform_get (w : WorkerId) (patience : Option Duration) (r : Service β) :
    (r.perform (Course.get w false) patience).2.cache = (r.cache.get w).2 := by
  cases hw : r.cache.peek? w with
  | none => rw [perform_get_miss hw]
  | some s => rw [perform_get_hit hw]

/-- What is posted for a write is whether there was an entry, if it is committed. -/
theorem reconciled_write (h : Reconciled ps r.cache) (hl : .invalidation ∈ r.listeners)
    (w : WorkerId) (u : Update) (now : Instant) (patience : Option Duration) :
    Reconciled (ps ++ r.postings patience (.write w u now))
      (r.perform (Course.write w u now) patience).2.cache := by
  simp only [postings]
  cases hvalid : u.validate with
  | error e =>
    rw [perform_write_refused hvalid]
    simpa using h
  | ok _ =>
    rw [perform_write_accepted hvalid]
    cases hcommit : r.committing u now patience with
    | none =>
      rw [List.append_nil]
      exact h
    | some committed =>
      obtain ⟨answer, left⟩ := committed
      cases answer with
      | error e =>
        rw [List.append_nil]
        exact h
      | ok s =>
        have hcache : (r.written w u now (some (.ok s, left))).cache = (r.cache.clear w).2 :=
          cache_foldl_tell hl (r.committed u now)
        simp only [hcache]
        exact h.clear w rfl rfl rfl rfl

/-- Whatever a caller undertakes is posted. -/
theorem reconciled_perform (h : Reconciled ps r.cache) (hl : .invalidation ∈ r.listeners)
    (k : Undertaking) (patience : Option Duration) :
    Reconciled (ps ++ r.postings patience k) (r.perform k.course patience).2.cache := by
  cases k with
  | enroll | stats =>
    change Reconciled (ps ++ []) (r.perform (Course.act _) patience).2.cache
    rw [perform_act, List.append_nil]
    exact h
  | get w bypass =>
    cases bypass with
    | true =>
      change Reconciled (ps ++ []) (r.perform (Course.get w true) patience).2.cache
      rw [perform_get_bypass, List.append_nil]
      exact h
    | false =>
      change Reconciled _ (r.perform (Course.get w false) patience).2.cache
      rw [postings_get, cache_perform_get]
      exact h.get w
  | fetch =>
    change Reconciled (ps ++ []) (r.perform Course.fetch patience).2.cache
    rw [perform_fetch, List.append_nil]
    exact h
  | write w u now => exact reconciled_write h hl w u now patience
  | start w =>
    change Reconciled _ (r.perform (Course.start w) patience).2.cache
    rw [perform_start]
    exact h.start w (r.fetched? patience)
  | finish w =>
    change Reconciled _ (r.perform (Course.finish w) patience).2.cache
    rw [perform_finish]
    exact h.finish w

end Service

/-! ## Sessions -/

namespace Session

variable {β ξ : Type}

/-- What is posted when the open unit of a name, if there is one, ends. -/
def closingPosting (s : Session β) (name : String) (c : ScopeCache Settings) : List Posting :=
  ((s.unit? name).map fun w => Posting.ended (c.contains w)).toList

/-- A cache after the open unit of a name, if there is one, has ended. -/
def closedCache (s : Session β) (name : String) (c : ScopeCache Settings) : ScopeCache Settings :=
  match s.unit? name with
  | some w => (c.clear w).2
  | none => c

theorem cache_closed (s : Session β) (name : String) :
    (s.closed name).service.cache = s.closedCache name s.service.cache := by
  unfold closed closedCache
  cases s.unit? name <;> rfl

theorem cache_begun (s : Session β) (w : WorkerId) (name : String) :
    (s.begun w name).service.cache = s.closedCache name s.service.cache := by
  unfold begun closedCache
  cases s.unit? name <;> rfl

theorem reconciled_closing {c : ScopeCache Settings} {ps : List Posting} (h : Reconciled ps c)
    (s : Session β) (name : String) :
    Reconciled (ps ++ s.closingPosting name c) (s.closedCache name c) := by
  unfold closingPosting closedCache
  cases s.unit? name with
  | none => simpa using h
  | some w => exact h.finish w

variable [Backend β]

/-- What is posted when an operation of a session is carried out now. A unit that is begun
under a name is posted before the end of the one that had the name. -/
def postings (s : Session β) (patience : Option Duration) : Operation → List Posting
  | .get w bypass => s.service.postings patience (.get (w.getD s.current) bypass)
  | .fetch => s.service.postings patience .fetch
  | .write w u now => s.service.postings patience (.write (w.getD s.current) u now)
  | .start w => s.service.postings patience (.start w)
  | .succeed w | .fail w => s.service.postings patience (.finish w)
  | .begin w name =>
    s.service.postings patience (.start w) ++
      match s.service.perform (Course.start w) patience with
      | (some _, r) => s.closingPosting name r.cache
      | (none, _) => []
  | .succeedUnit name | .failUnit name | .dropUnit name =>
    s.closingPosting name s.service.cache

def movePostings (s : Session β) : Move ξ → List Posting
  | .use patience o => s.postings patience o
  | .enter _ | .leave | .register _ | .outside _ => []

variable {s : Session β} {ps : List Posting}

/-- A unit that is begun is posted, and then the end of the one that had its name. -/
theorem reconciled_begin (h : Reconciled ps s.service.cache) (patience : Option Duration)
    (w : WorkerId) (name : String) :
    Reconciled (ps ++ s.postings patience (.begin w name))
      ((beginUnit w name patience).alone s).2.service.cache := by
  have hstart : Reconciled (ps ++ s.service.postings patience (.start w))
      (s.service.started w (s.service.fetched? patience)).cache :=
    h.start w (s.service.fetched? patience)
  change Reconciled (ps ++ (_ ++ _)) _
  rw [beginUnit_alone, Service.perform_start, ← List.append_assoc]
  cases hfetch : s.service.fetching patience with
  | none =>
    have hnone : s.service.fetched? patience = none := by simp [Service.fetched?, hfetch]
    rw [hnone] at hstart
    simp only [Option.map_none, List.append_nil]
    exact hstart
  | some x =>
    dsimp only [Option.map_some]
    rw [cache_begun]
    exact reconciled_closing hstart (s.withService _) name

theorem reconciled_operation (h : Reconciled ps s.service.cache)
    (hl : .invalidation ∈ s.service.listeners) (patience : Option Duration) (o : Operation) :
    Reconciled (ps ++ s.postings patience o)
      ((perform patience o).alone s).2.service.cache := by
  cases o with
  | get w bypass =>
    rw [perform_get]
    exact Service.reconciled_perform h hl (.get (w.getD s.current) bypass) patience
  | fetch =>
    change Reconciled (ps ++ []) ((perform patience .fetch).alone s).2.service.cache
    rw [perform_fetch, List.append_nil]
    exact h
  | write w u now =>
    rw [perform_write]
    exact Service.reconciled_perform h hl (.write (w.getD s.current) u now) patience
  | start w =>
    rw [perform_start]
    exact h.start w (s.service.fetched? patience)
  | succeed w =>
    rw [perform_succeed]
    exact h.finish w
  | fail w =>
    rw [perform_fail]
    exact h.finish w
  | begin w name => exact reconciled_begin h patience w name
  | succeedUnit name | failUnit name | dropUnit name =>
    change Reconciled (ps ++ s.closingPosting name s.service.cache)
      ((endUnit name patience).alone s).2.service.cache
    rw [endUnit_alone, cache_closed]
    exact reconciled_closing h s name

theorem reconciled_move (change : ξ → β → β) (h : Reconciled ps s.service.cache)
    (hl : .invalidation ∈ s.service.listeners) (m : Move ξ) :
    Reconciled (ps ++ s.movePostings m) ((move change m).alone s).2.service.cache := by
  cases m with
  | use patience o => exact reconciled_operation h hl patience o
  | enter w | leave | register l | outside x =>
    change Reconciled (ps ++ []) s.service.cache
    rw [List.append_nil]
    exact h

end Session

end ScopedSettings
