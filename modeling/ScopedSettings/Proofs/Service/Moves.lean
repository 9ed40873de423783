/-
What each operation of a session comes to by itself: its outcome and the
session afterwards, in terms of the courses performed on the service.
-/
import ScopedSettings.Proofs.Service.Courses
import ScopedSettings.Service.Runs

namespace ScopedSettings.Session

variable {β ξ τ : Type}

/-- The session with another service. -/
def withService (s : Session β) (r : Service β) : Session β :=
  { s with service := r }

@[simp] theorem withService_service (s : Session β) (r : Service β) :
    (s.withService r).service = r := rfl

@[simp] theorem withService_withService (s : Session β) (r r' : Service β) :
    (s.withService r).withService r' = s.withService r' := rfl

@[simp] theorem unit?_withService (s : Session β) (r : Service β) (name : String) :
    (s.withService r).unit? name = s.unit? name := rfl

variable [Backend β]

theorem run_alone (c : Course α) (patience : Option Duration) (s : Session β) :
    (run c patience).alone s =
      ((s.service.perform c patience).1, s.withService (s.service.perform c patience).2) := by
  unfold run
  refine (Strand.on_alone ?_ ?_ ?_ _ _).trans ?_
  · exact fun _ => rfl
  · exact fun _ _ => rfl
  · exact fun _ _ _ => rfl
  · rw [Service.play_alone]
    rfl

theorem runFor_alone (c : Course α) (patience : Option Duration) (outcome : α → Outcome)
    (s : Session β) :
    (runFor c patience outcome).alone s =
      ((s.service.perform c patience).1.map fun a => outcome a.1,
        s.withService (s.service.perform c patience).2) := by
  unfold runFor
  rw [Strand.bind_alone, run_alone]
  rfl

theorem runAs_alone (w : Option WorkerId) (c : WorkerId → Course α) (patience : Option Duration)
    (outcome : α → Outcome) (s : Session β) :
    (runAs w c patience outcome).alone s =
      ((s.service.perform (c (w.getD s.current)) patience).1.map fun a => outcome a.1,
        s.withService (s.service.perform (c (w.getD s.current)) patience).2) := by
  unfold runAs
  rw [Strand.bind_alone]
  exact runFor_alone _ _ _ _

/-! ## Operation by operation -/

theorem perform_get (w : Option WorkerId) (bypass : Bool) (patience : Option Duration)
    (s : Session β) :
    (perform patience (.get w bypass)).alone s =
      ((s.service.perform (Course.get (w.getD s.current) bypass) patience).1.map
          fun a => Outcome.settings a.1,
        s.withService (s.service.perform (Course.get (w.getD s.current) bypass) patience).2) :=
  runAs_alone w (fun w => Course.get w bypass) patience .settings s

theorem perform_fetch (patience : Option Duration) (s : Session β) :
    (perform patience .fetch).alone s =
      ((s.service.fetching patience).map fun a => Outcome.settings a.1,
        s.withService s.service.loaded) := by
  refine (runFor_alone Course.fetch patience .settings s).trans ?_
  rw [Service.perform_fetch]

theorem perform_write (w : Option WorkerId) (u : Update) (now : Instant)
    (patience : Option Duration) (s : Session β) :
    (perform patience (.write w u now)).alone s =
      ((s.service.perform (Course.write (w.getD s.current) u now) patience).1.map
          fun a => Outcome.settings a.1,
        s.withService (s.service.perform (Course.write (w.getD s.current) u now) patience).2) :=
  runAs_alone w (fun w => Course.write w u now) patience .settings s

theorem perform_start (w : WorkerId) (patience : Option Duration) (s : Session β) :
    (perform patience (.start w)).alone s =
      ((s.service.fetching patience).map fun _ => Outcome.started,
        s.withService (s.service.started w (s.fetched? patience))) := by
  refine (runFor_alone (Course.start w) patience (fun _ => .started) s).trans ?_
  rw [Service.perform_start, Option.map_map]
  rfl

/-- The session with a worker's unit ended. -/
def finished (s : Session β) (w : WorkerId) : Session β :=
  s.withService { s.service with cache := (s.service.cache.clear w).2 }

theorem runFor_finish (w : WorkerId) (outcome : Outcome) (patience : Option Duration)
    (s : Session β) :
    (runFor (Course.finish w) patience fun _ => outcome).alone s =
      (some outcome, s.finished w) := by
  rw [runFor_alone, Service.perform_finish]
  rfl

theorem perform_succeed (w : WorkerId) (patience : Option Duration) (s : Session β) :
    (perform patience (.succeed w)).alone s = (some .ended, s.finished w) :=
  runFor_finish w .ended patience s

theorem perform_fail (w : WorkerId) (patience : Option Duration) (s : Session β) :
    (perform patience (.fail w)).alone s = (some .ended, s.finished w) :=
  runFor_finish w .ended patience s

/-- The session after the unit of a name has been closed. -/
def closed (s : Session β) (name : String) : Session β :=
  match s.unit? name with
  | none => s.closeUnit name
  | some w => (s.closeUnit name).finished w

omit [Backend β] in
theorem backend_closed (s : Session β) (name : String) :
    (s.closed name).service.backend = s.service.backend := by
  unfold closed
  split <;> rfl

theorem endUnit_alone (name : String) (patience : Option Duration) (s : Session β) :
    (endUnit name patience).alone s =
      (some (if (s.unit? name).isSome then .ended else .noUnit), s.closed name) := by
  unfold endUnit closed
  rw [Strand.bind_alone]
  simp only [Strand.act, Strand.alone]
  cases s.unit? name with
  | none => rfl
  | some w => exact runFor_finish w .ended patience _

/-- The session after a unit has been begun under a name: the unit that had the name is
closed once the new one has started. -/
def begun (s : Session β) (w : WorkerId) (name : String) : Session β :=
  match s.unit? name with
  | none => s.openUnit name w
  | some v => (s.openUnit name w).finished v

omit [Backend β] in
theorem backend_begun (s : Session β) (w : WorkerId) (name : String) :
    (s.begun w name).service.backend = s.service.backend := by
  unfold begun
  split <;> rfl

theorem beginUnit_alone (w : WorkerId) (name : String) (patience : Option Duration)
    (s : Session β) :
    (beginUnit w name patience).alone s =
      ((s.service.fetching patience).map fun _ => Outcome.begun w,
        match s.service.fetching patience with
        | none => s.withService (s.service.started w none)
        | some _ => (s.withService (s.service.started w (s.fetched? patience))).begun w name) := by
  unfold beginUnit
  rw [Strand.bind_alone, run_alone, Service.perform_start]
  cases h : s.service.fetching patience with
  | none =>
    have hnone : s.service.fetched? patience = none := by simp [Service.fetched?, h]
    simp only [Option.map_none, hnone]
    rfl
  | some x =>
    have hfetched : s.service.fetched? patience = s.fetched? patience := rfl
    simp only [Option.map_some, hfetched, Strand.bind_alone, Strand.act, Strand.alone, begun,
      unit?_withService]
    cases s.unit? name with
    | none => rfl
    | some v => exact runFor_finish v (.begun w) x.2 _

theorem perform_begin (w : WorkerId) (name : String) (patience : Option Duration)
    (s : Session β) :
    (perform patience (.begin w name)).alone s = (beginUnit w name patience).alone s := rfl

end ScopedSettings.Session
