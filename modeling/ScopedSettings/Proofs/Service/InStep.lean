/-
Services on stores that answer alike do the same at the same time.

No operation of a session looks at the cache's counters (`Course.Heedless`). So
where related services carry every other act out with the same answer and stay
related (`Service.Similar`), sessions on them are in step, operation by operation
(`Session.perform_related`, `Session.move_related`). How an operation is made of
courses is followed once, for every way in which strands may be alike
(`Session.Likeness`). Nothing in a service depends on its store but for the
answers it gives: services that are equal apart from their stores, which give
the same ones (`Backend.Alike`), are such a relation (`Service.InStep`), and so
are the machines of sessions on them in step (`Session.machine_related`). A
program then has the same trace on both, with whatever is seen of a session
beside its store.
-/
import ScopedSettings.Proofs.Program.Related
import ScopedSettings.Proofs.Service.Courses
import ScopedSettings.Service.Runs

namespace ScopedSettings

variable {β γ ξ : Type}

/-! ## Courses that do not look at the counters -/

namespace Course

/-- Does a course come to its end, whatever it is answered, without looking at the cache's
counters? -/
def Heedless (c : Course α) : Prop :=
  Only (· ≠ .stats) c

theorem heedless_fetch : Heedless fetch :=
  only_fetch Act.noConfusion

theorem heedless_get (w : WorkerId) (bypass : Bool) : Heedless (get w bypass) :=
  only_get Act.noConfusion Act.noConfusion bypass

theorem heedless_write (w : WorkerId) (u : Update) (now : Instant) : Heedless (write w u now) :=
  only_write Act.noConfusion (fun _ => Act.noConfusion) (fun _ => Act.noConfusion) w

theorem heedless_start (w : WorkerId) : Heedless (start w) :=
  only_start Act.noConfusion Act.noConfusion fun _ => Act.noConfusion

theorem heedless_finish (w : WorkerId) : Heedless (finish w) :=
  only_finish Act.noConfusion

end Course

/-! ## Services that are not told apart -/

namespace Service

/-- Do related services carry every act out alike, but for a look at the counters, and
stay related? -/
structure Similar [Backend β] [Backend γ] (R : Service β → Service γ → Prop) : Prop where
  carryOut {r : Service β} {q : Service γ} (h : R r q) {a : Act} (ha : a ≠ .stats) :
    (r.carryOut a).1 = (q.carryOut a).1 ∧ R (r.carryOut a).2 (q.carryOut a).2
  abandon {r : Service β} {q : Service γ} (h : R r q) (held : List WorkerId) :
    R (r.abandon held) (q.abandon held)
  addListener {r : Service β} {q : Service γ} (h : R r q) (l : Listener) :
    R (r.addListener l) (q.addListener l)

variable [Backend β] [Backend γ] {R : Service β → Service γ → Prop}

theorem Similar.drop_related (hR : Similar R) (c : Call) (patience : Option Duration) :
    Strand.Related R (drop c patience : Strand (Service β) (Option α)) (drop c patience) := by
  have habandon : Strand.Related R
      (.act fun r : Service β => ((none : Option α), r.abandon c.held))
      (.act fun q : Service γ => (none, q.abandon c.held)) :=
    .act fun _ _ h => ⟨rfl, hR.abandon h c.held⟩
  exact habandon.hold _

/-- Courses are in step on similar services. -/
theorem Similar.play_related (hR : Similar R) {c : Course α} (hc : c.Heedless)
    (patience : Option Duration) : Strand.Related R (play c patience) (play c patience) := by
  induction hc generalizing patience with
  | done a => exact .done _
  | @step c next hact _ ih =>
    simp only [play]
    refine .read fun r q h => ?_
    obtain ⟨hanswer, hafter⟩ := hR.carryOut h hact
    rw [hanswer]
    refine .write hafter ?_
    split
    · exact hR.drop_related c patience
    · split
      · exact (ih _ _).hold _
      · exact hR.drop_related c patience

end Service

/-! ## Sessions on such services -/

namespace Session

/-- Sessions that are equal but for their services, which are related. -/
structure Over (R : Service β → Service γ → Prop) (s : Session β) (t : Session γ) : Prop where
  service : R s.service t.service
  thread : s.thread = t.thread
  scopes : s.scopes = t.scopes
  units : s.units = t.units

variable {R : Service β → Service γ → Prop} {s : Session β} {t : Session γ}

theorem Over.current_eq (h : Over R s t) : s.current = t.current := by
  unfold current
  rw [h.scopes, h.thread]

theorem Over.unit?_eq (h : Over R s t) (name : String) : s.unit? name = t.unit? name := by
  unfold unit?
  rw [h.units]

theorem Over.enter (h : Over R s t) (w : WorkerId) : Over R (s.enter w) (t.enter w) :=
  { h with scopes := congrArg (w :: ·) h.scopes }

theorem Over.leave (h : Over R s t) : Over R s.leave t.leave :=
  { h with scopes := congrArg List.tail h.scopes }

theorem Over.closeUnit (h : Over R s t) (name : String) :
    Over R (s.closeUnit name) (t.closeUnit name) := by
  refine { h with units := ?_ }
  unfold Session.closeUnit
  rw [h.units]

theorem Over.openUnit (h : Over R s t) (name : String) (w : WorkerId) :
    Over R (s.openUnit name w) (t.openUnit name w) :=
  { h.closeUnit name with units := congrArg ((name, w) :: ·) (h.closeUnit name).units }

section operations

open Course

variable [Backend β] [Backend γ]

/-- A way in which strands on sessions over related services are alike: those in step are,
one after another they are, and the end of a unit is at any patience. -/
structure Likeness (R : Service β → Service γ → Prop)
    (Like : ∀ {α : Type}, Strand (Session β) α → Strand (Session γ) α → Prop) : Prop where
  of_related {α : Type} {p : Strand (Session β) α} {q : Strand (Session γ) α}
    (h : Strand.Related (Over R) p q) : Like p q
  bind {α ω : Type} {p : Strand (Session β) α} {q : Strand (Session γ) α}
    {f : α → Strand (Session β) ω} {g : α → Strand (Session γ) ω} (h : Like p q)
    (hf : ∀ a, Like (f a) (g a)) : Like (p >>= f) (q >>= g)
  finish (w : WorkerId) (patience : Option Duration) :
    Like (run (Course.finish w) patience) (run (Course.finish w) patience)

section like

variable {Like : ∀ {α : Type}, Strand (Session β) α → Strand (Session γ) α → Prop}
  (hLike : Likeness R Like)
include hLike

theorem Likeness.runFor {c : Course α} {patience : Option Duration}
    (hc : Like (run c patience) (run c patience)) (outcome : α → Outcome) :
    Like (Session.runFor c patience outcome) (Session.runFor c patience outcome) :=
  hLike.bind hc fun _ => hLike.of_related (.done _)

theorem Likeness.runAs (w : Option WorkerId) {c : WorkerId → Course α}
    {patience : Option Duration} (hc : ∀ w, Like (run (c w) patience) (run (c w) patience))
    (outcome : α → Outcome) :
    Like (Session.runAs w c patience outcome) (Session.runAs w c patience outcome) := by
  refine hLike.bind (hLike.of_related (.look fun _ _ h => h.current_eq)) fun v => ?_
  exact hLike.runFor (hc (w.getD v)) outcome

theorem Likeness.endUnit (name : String) (patience : Option Duration) :
    Like (Session.endUnit name patience) (Session.endUnit name patience) := by
  refine hLike.bind (hLike.of_related ?_) fun found => ?_
  · exact .act fun _ _ h => ⟨h.unit?_eq name, h.closeUnit name⟩
  · cases found with
    | none => exact hLike.of_related (.done _)
    | some w => exact hLike.runFor (hLike.finish w patience) _

theorem Likeness.beginUnit {w : WorkerId} {patience : Option Duration}
    (hstart : Like (run (Course.start w) patience) (run (Course.start w) patience))
    (name : String) :
    Like (Session.beginUnit w name patience) (Session.beginUnit w name patience) := by
  refine hLike.bind hstart fun begun => ?_
  cases begun with
  | none => exact hLike.of_related (.done _)
  | some begun =>
    obtain ⟨-, left⟩ := begun
    refine hLike.bind (hLike.of_related ?_) fun found => ?_
    · exact .act fun _ _ h => ⟨h.unit?_eq name, h.openUnit name w⟩
    · cases found with
      | none => exact hLike.of_related (.done _)
      | some v => exact hLike.runFor (hLike.finish v left) _

/-- Operations are alike where courses are that do not look at the counters. -/
theorem Likeness.perform {patience : Option Duration}
    (hrun : ∀ {α : Type} {c : Course α}, c.Heedless → Like (run c patience) (run c patience))
    (o : Operation) : Like (Session.perform patience o) (Session.perform patience o) := by
  cases o with
  | get w bypass => exact hLike.runAs w (fun w => hrun (heedless_get w bypass)) .settings
  | fetch => exact hLike.runFor (hrun heedless_fetch) .settings
  | write w u now => exact hLike.runAs w (fun w => hrun (heedless_write w u now)) .settings
  | start w => exact hLike.runFor (hrun (heedless_start w)) fun _ => .started
  | succeed w | fail w => exact hLike.runFor (hLike.finish w patience) fun _ => .ended
  | begin w name => exact hLike.beginUnit (hrun (heedless_start w)) name
  | succeedUnit name | failUnit name | dropUnit name => exact hLike.endUnit name patience

end like

variable (hR : Service.Similar R)
include hR

theorem run_related {c : Course α} (hc : c.Heedless) (patience : Option Duration) :
    Strand.Related (Over R) (run c patience) (run c patience) :=
  (hR.play_related hc patience).on (fun _ _ h => h.service)
    fun _ _ _ _ hr h => { h with service := hr }

theorem likeness_related : Likeness R fun p q => Strand.Related (Over R) p q where
  of_related h := h
  bind h hf := h.bind hf
  finish w patience := run_related hR (heedless_finish w) patience

/-- Operations are in step on sessions over similar services. -/
theorem perform_related (patience : Option Duration) (o : Operation) :
    Strand.Related (Over R) (perform patience o) (perform patience o) :=
  (likeness_related hR).perform (fun hc => run_related hR hc patience) o

/-- So are moves, where what happens outside keeps the services related. -/
theorem move_related {change : ξ → β → β} {change' : ξ → γ → γ}
    (hchange : ∀ x r q, R r q → R { r with backend := change x r.backend }
      { q with backend := change' x q.backend }) (m : Move ξ) :
    Strand.Related (Over R) (move change m) (move change' m) := by
  cases m with
  | use patience o => exact perform_related hR patience o
  | enter w => exact .act fun _ _ h => ⟨rfl, h.enter w⟩
  | leave => exact .act fun _ _ h => ⟨rfl, h.leave⟩
  | register l =>
    exact .act fun _ _ h => ⟨rfl, { h with service := hR.addListener h.service l }⟩
  | outside x => exact .act fun _ _ h => ⟨rfl, { h with service := hchange x _ _ h.service }⟩

end operations
end Session

/-! ## Services on stores that answer alike -/

/-- Stores that answer at once and the same, whatever they are asked. -/
structure Backend.Alike [Backend β] [Backend γ] (B : β → γ → Prop) : Prop where
  load {b : β} {c : γ} (h : B b c) : ∃ answer, (load b).2 = .now answer ∧
    (load c).2 = .now answer ∧ B (load b).1 (load c).1
  commit {b : β} {c : γ} (h : B b c) (u : Update) (now : Instant) : ∃ answer,
    (commit b u now).2 = .now answer ∧ (commit c u now).2 = .now answer ∧
      B (commit b u now).1 (commit c u now).1

namespace Service

/-- A service on a store, as it is on another one. -/
def onStore (r : Service β) (c : γ) : Service γ where
  backend := c
  fetchTimeout := r.fetchTimeout
  listeners := r.listeners
  notes := r.notes
  channel := r.channel
  cache := r.cache
  nextWorker := r.nextWorker

/-- Services that are equal but for their stores, which are related. -/
structure InStep (B : β → γ → Prop) (r : Service β) (q : Service γ) : Prop where
  backend : B r.backend q.backend
  eq_onStore : q = r.onStore q.backend

variable {B : β → γ → Prop} {r : Service β} {q : Service γ}

theorem inStep_onStore {c : γ} (h : B r.backend c) : InStep B r (r.onStore c) :=
  ⟨h, rfl⟩

/-- Services in step are so whatever becomes of their stores, if these stay related. -/
theorem InStep.withBackend (h : InStep B r q) {b : β} {c : γ} (hb : B b c) :
    InStep B { r with backend := b } { q with backend := c } := by
  refine ⟨hb, ?_⟩
  rw [h.eq_onStore]
  rfl

theorem tell_onStore (r : Service β) (c : γ) (e : WriteEvent) (l : Listener) :
    (r.onStore c).tell e l = (r.tell e l).onStore c := by
  cases l <;> rfl

theorem notify_onStore (r : Service β) (c : γ) (e : WriteEvent) :
    (r.onStore c).notify e = (r.notify e).onStore c :=
  List.foldl_hom (onStore · c) fun r l => tell_onStore r c e l

variable [Backend β] [Backend γ]

/-- Services in step answer every act the same, and stay in step. -/
theorem InStep.carryOut (hB : Backend.Alike B) (h : InStep B r q) (a : Act) :
    (r.carryOut a).1 = (q.carryOut a).1 ∧ InStep B (r.carryOut a).2 (q.carryOut a).2 := by
  -- only a fetch and a commit ask the store
  obtain ⟨hbackend, heq⟩ := h
  generalize q.backend = c at hbackend heq
  subst heq
  cases a with
  | enroll | lookUp w | keep w s | forget w | stats | announce e => exact ⟨rfl, hbackend, rfl⟩
  | fetch =>
    obtain ⟨answer, hb, hc, hnext⟩ := hB.load hbackend
    refine ⟨?_, hnext, rfl⟩
    change awaitFetch _ r.fetchTimeout (Backend.load r.backend).2 =
      awaitFetch _ r.fetchTimeout (Backend.load c).2
    rw [hb, hc, awaitFetch_now, awaitFetch_now]
  | commit u now =>
    obtain ⟨answer, hb, hc, hnext⟩ := hB.commit hbackend u now
    refine ⟨?_, hnext, rfl⟩
    change await (Backend.commit r.backend u now).2 = await (Backend.commit c u now).2
    rw [hb, hc]
  | notify e =>
    refine ⟨rfl, ?_⟩
    change InStep B (r.notify e) ((r.onStore c).notify e)
    rw [notify_onStore]
    refine inStep_onStore ?_
    rw [backend_notify]
    exact hbackend

theorem similar_inStep (hB : Backend.Alike B) : Similar (InStep B) where
  carryOut h a _ := h.carryOut hB a
  abandon h held := by
    rw [h.eq_onStore]
    exact ⟨h.backend, rfl⟩
  addListener h l := by
    rw [h.eq_onStore]
    exact ⟨h.backend, rfl⟩

end Service

namespace Session

/-- Sessions that are equal but for the stores of their services, which are related. -/
structure InStep (B : β → γ → Prop) (s : Session β) (t : Session γ) : Prop where
  service : s.service.InStep B t.service
  thread : s.thread = t.thread
  scopes : s.scopes = t.scopes
  units : s.units = t.units

variable {B : β → γ → Prop} {s : Session β} {t : Session γ}

theorem InStep.over (h : InStep B s t) : Over (Service.InStep B) s t :=
  ⟨h.service, h.thread, h.scopes, h.units⟩

/-- A session without its store. -/
def withoutStore (s : Session β) : Session Unit where
  service := s.service.onStore ()
  thread := s.thread
  scopes := s.scopes
  units := s.units

theorem Over.withoutStore_eq (h : Over (Service.InStep B) s t) :
    s.withoutStore = t.withoutStore := by
  have hservice : s.service.onStore () = t.service.onStore () := by
    rw [h.service.eq_onStore]
    rfl
  unfold withoutStore
  rw [hservice, h.thread, h.scopes, h.units]

variable [Backend β] [Backend γ]

/-! ## Programs -/

/-- The machines of sessions in step are in step, if no one changes the stores. -/
theorem machine_related (hB : Backend.Alike B) (observe : Session Unit → ε)
    (change : Empty → β → β) (change' : Empty → γ → γ) :
    Machine.Related (Over (Service.InStep B)) (machine change fun s => observe s.withoutStore)
      (machine change' fun s => observe s.withoutStore) where
  perform := move_related (Service.similar_inStep hB) fun x => x.elim
  failure? := rfl
  observe _ _ h := congrArg observe h.withoutStore_eq
  enter w _ _ h := h.enter w
  leave _ _ h := h.leave
  start w := (run_related (Service.similar_inStep hB) (Course.heedless_start w) none).map _
  finish w := (run_related (Service.similar_inStep hB) (Course.heedless_finish w) none).map _

/-- What is seen of a program on a session: what its steps come to, and after each of them
the session without its store; and the failure the program stopped at. -/
def trace (steps : Steps (Move Empty) ν) (tries : Bool) (s : Session β) :
    Trace (Option Outcome) ν (Session Unit) × Option String :=
  ((steps.perform (machine (fun x => x.elim) withoutStore) tries).alone s).1

theorem InStep.trace_eq (hB : Backend.Alike B) (h : InStep B s t) (steps : Steps (Move Empty) ν)
    (tries : Bool) : s.trace steps tries = t.trace steps tries :=
  (Steps.alone_related (machine_related hB id _ _) steps tries h.over).1

end Session

end ScopedSettings
