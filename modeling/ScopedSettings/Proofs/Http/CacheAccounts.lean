/-
The cache's accounts at a reception, after every deed.

Requests do their operations between those of the service's own process, so that what is
posted follows the deeds one by one (`Reception.ledger`). Each deed keeps the cache
reconciled with what has been posted (`reconciled_step`): an operation of a request is one of
the service, and a request that is dropped ends the units it holds. Hence the counters are
the sums of the ledger after all deeds, and after every program, which makes its deeds in
some order (`cache_reconciled`).
-/
import ScopedSettings.Http.Reception
import ScopedSettings.Proofs.Http.Conduct
import ScopedSettings.Proofs.Http.Traffic
import ScopedSettings.Proofs.Program.Recorded
import ScopedSettings.Proofs.Service.Ledger

namespace ScopedSettings

variable {β ξ : Type}

theorem Service.mem_listeners_perform_course [Backend β] {l : Listener} (c : Course α)
    (patience : Option Duration) {r : Service β} (h : l ∈ r.listeners) :
    l ∈ (r.perform c patience).2.listeners := by
  induction c generalizing patience r with
  | done a => exact h
  | step call next ih =>
    have hcarried := mem_listeners_carryOut h call.act
    simp only [perform]
    generalize r.carryOut call.act = carried at hcarried ⊢
    obtain ⟨answer, r'⟩ := carried
    cases answer with
    | none => exact hcarried
    | some answered =>
      dsimp only
      split
      · exact ih _ _ hcarried
      · exact hcarried

namespace Http.Reception

/-- What is posted when a deed is done now. -/
def postings [Backend β] (t : Reception β) : Deed ξ → List Posting
  | .move m => t.session.movePostings m
  | .arrive _ _ => []
  | .proceed i patience =>
    match t.next? i with
    | some k => t.service.postings patience k
    | none => []
  | .drop i => Service.endings t.service.cache (t.heldBy i)

/-- What is posted as deeds are done, one after another. -/
def ledger [Backend β] (change : ξ → β → β) (t : Reception β) : List (Deed ξ) → List Posting
  | [] => []
  | d :: ds => t.postings d ++ (step change d t).2.ledger change ds

variable {t : Reception β} {ps : List Posting}

/-- A request that is dropped abandons what it holds; others abandon nothing. -/
theorem service_dropRequest (t : Reception β) (i : Nat) :
    (t.dropRequest i).service = t.service.abandon (t.heldBy i) := by
  unfold dropRequest heldBy
  split <;> rfl

variable [Backend β]

theorem service_proceed {i : Nat} {k : Undertaking} (h : t.next? i = some k)
    (patience : Option Duration) :
    (t.proceed i patience).service = (t.service.perform k.course patience).2 := by
  unfold next? at h
  unfold proceed
  split at h
  · cases h
    rfl
  · cases h

theorem proceed_of_idle {i : Nat} (h : t.next? i = none) (patience : Option Duration) :
    t.proceed i patience = t := by
  unfold next? at h
  unfold proceed
  split
  · rename_i job next hhandling
    rw [hhandling] at h
    cases h
  · rfl

theorem mem_listeners_step (change : ξ → β → β) {l : Listener} (h : l ∈ t.service.listeners)
    (d : Deed ξ) : l ∈ (step change d t).2.service.listeners := by
  cases d with
  | move m => exact Session.mem_listeners_afterMove change h m
  | arrive q now => exact h
  | proceed i patience =>
    change l ∈ (t.proceed i patience).service.listeners
    cases hnext : t.next? i with
    | none =>
      rw [proceed_of_idle hnext]
      exact h
    | some k =>
      rw [service_proceed hnext]
      exact Service.mem_listeners_perform_course k.course patience h
  | drop i =>
    change l ∈ (t.dropRequest i).service.listeners
    rw [service_dropRequest]
    exact h

/-- Whatever is done, what is posted for it says how the cache's counters change. -/
theorem reconciled_step (change : ξ → β → β) (h : Reconciled ps t.service.cache)
    (hl : .invalidation ∈ t.service.listeners) (d : Deed ξ) :
    Reconciled (ps ++ t.postings d) (step change d t).2.service.cache := by
  cases d with
  | move m => exact Session.reconciled_move change h hl m
  | arrive q now =>
    change Reconciled (ps ++ []) t.service.cache
    rw [List.append_nil]
    exact h
  | proceed i patience =>
    change Reconciled _ (t.proceed i patience).service.cache
    simp only [postings]
    cases hnext : t.next? i with
    | none =>
      rw [proceed_of_idle hnext, List.append_nil]
      exact h
    | some k =>
      rw [service_proceed hnext]
      exact Service.reconciled_perform h hl k patience
  | drop i =>
    change Reconciled _ (t.dropRequest i).service.cache
    rw [service_dropRequest]
    exact h.endings (t.heldBy i)

theorem reconciled_after (change : ξ → β → β) (h : Reconciled ps t.service.cache)
    (hl : .invalidation ∈ t.service.listeners) (ds : List (Deed ξ)) :
    Reconciled (ps ++ t.ledger change ds)
      (Stepwise.after (step change) t ds).service.cache := by
  induction ds generalizing ps t with
  | nil =>
    rw [ledger, List.append_nil]
    exact h
  | cons d ds ih =>
    have hrest := ih (reconciled_step change h hl d) (mem_listeners_step change hl d)
    rw [List.append_assoc] at hrest
    exact hrest

/-- Over any backend and whatever is done to its record from outside, with requests doing the
operations that the interface's answer consists of: a run leaves the reception as its deeds
do, one after another, and after each of them, be it one of a program or of a request, what
has been loaded has been cleared or is there; loads are the starts whose fetch
succeeded; hits and misses are the reads that did not bypass the cache, hits those among them
answered without a call to the backend; and clears are the ends, starts and committed writes
that found an entry of their worker. -/
theorem cache_reconciled {backend : β} {config : Config} {r : Service β}
    (hr : Service.ofBackend backend config = .ok r) (thread : WorkerId) (change : ξ → β → β)
    {ds : List (Deed ξ)} {t : Reception β} (h : Runs change (opened r thread) ds t) :
    (∀ q now, (conduct q now).expand = handle q now) ∧
      t = Stepwise.after (step change) (opened r thread) ds ∧
      ∀ done, done <+: ds →
        let c := (Stepwise.after (step change) (opened r thread) done).service.cache
        let ps := (opened r thread).ledger change done
        c.loads = c.clears + c.size ∧
          c.loads = ps.countP Posting.isFetched ∧
          c.hits + c.misses = ps.countP Posting.isRead ∧
          c.hits = ps.countP Posting.isUncalled ∧
          c.clears = ps.countP Posting.hasFound := by
  refine ⟨expand_conduct, Stepwise.Runs.eq_after h, fun done _ => ?_⟩
  have hl : .invalidation ∈ r.listeners := by
    rw [Service.eq_of_ofBackend hr]
    exact List.mem_singleton.mpr rfl
  have hempty : r.cache = .empty := by rw [Service.eq_of_ofBackend hr]
  have hfirst : Reconciled [] (opened r thread).service.cache := by
    change Reconciled [] r.cache
    rw [hempty]
    exact .empty
  have hreconciled := reconciled_after change hfirst hl done
  refine ⟨?_, hreconciled.loads_eq, hreconciled.reads_eq, hreconciled.hits_eq,
    hreconciled.clears_eq⟩
  simpa [ScopeCache.empty, ScopeCache.size] using hreconciled.balanced.balance

/-- A request to read the settings that has started its unit, and a unit that reads, writes and
reads again before the request does its reading and ends. -/
def readAround : Steps (Deed Unit) Unit :=
  .cons (.op (.arrive { method := "GET", target := "/api/settings" } .epoch)) <|
    .cons (.op (.proceed 0 none)) <|
      .cons (.op (.proceed 0 none)) <|
        .cons (.unit ⟨7⟩
          (.cons (.op (.move (.use none (.get none false)))) <|
            .cons (.op (.move (.use none (.write none { enableJira := some true } .epoch)))) <|
              .cons (.op (.move (.use none (.get none false)))) <|
                .cons (.op (.proceed 0 none)) .nil)
          false (.ok ())) <|
          .cons (.op (.proceed 0 none)) .nil

theorem cache_reconciled_readAround :
    ∃ r, Service.ofBackend ({ record := some .default } : MemoryStore) {} = .ok r ∧
      let change := fun (_ : Unit) (m : MemoryStore) => m
      let t := opened r ⟨0⟩
      let ds := stepwise.stepsOf (step change) readAround false t
      let left := ((readAround.perform (stepwise.machine (step change)) false).alone t).2
      let c := left.service.cache
      Runs change t ds left ∧
        t.ledger change ds =
          [.started false true, .started false true, .read true, .committed true, .read false,
            .read true, .ended false, .ended true] ∧
        c.loads = 2 ∧ c.hits = 2 ∧ c.misses = 1 ∧ c.clears = 2 ∧ c.size = 0 := by
  have hr : Service.ofBackend ({ record := some .default } : MemoryStore) {} = .ok _ := rfl
  refine ⟨_, hr, ?_⟩
  intro change t ds left c
  have hruns : Runs change t ds left := .program readAround false
  have hledger : t.ledger change ds =
      [.started false true, .started false true, .read true, .committed true, .read false,
        .read true, .ended false, .ended true] := by
    decide +kernel
  obtain ⟨-, hleft, hdone⟩ := cache_reconciled hr ⟨0⟩ change hruns
  obtain ⟨hbalance, hloads, hreads, hhits, hclears⟩ := hdone ds List.prefix_rfl
  rw [← hleft] at hbalance hloads hreads hhits hclears
  rw [hledger] at hloads hreads hhits hclears
  change c.loads = c.clears + c.size at hbalance
  change c.loads = 2 at hloads
  change c.hits + c.misses = 3 at hreads
  change c.hits = 2 at hhits
  change c.clears = 2 at hclears
  refine ⟨hruns, hledger, hloads, hhits, ?_, hclears, ?_⟩ <;> omega

end Http.Reception
end ScopedSettings
