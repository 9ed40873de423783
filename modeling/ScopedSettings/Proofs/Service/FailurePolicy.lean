/-
What becomes of failures of the store.

No failure of a load is one of the start of a unit: the unit begins, without an entry
(`Session.perform_start_eq`), and comes out as its body does (`Session.unit_alone`). A read
fails only where it asks the store and the load fails, with the failure of that load and
never because the store is not ready (`Session.get_error`). This needs the loads to come
to an end, or to be given up after some time (`LoadsEnd`); the time is fixed when the
service is made, and no operation changes it (`Session.Waits`).
-/
import ScopedSettings.Proofs.Program.Begun
import ScopedSettings.Proofs.Service.InStep
import ScopedSettings.Proofs.Service.Programs

namespace ScopedSettings

open Strand (Ends)

variable {β ξ τ : Type}

/-- Is a move no operation on the service? -/
def Move.isQuiet : Move ξ → Bool
  | .use _ _ => false
  | _ => true

/-! ## Fetches -/

/-- Is every load answered, or waited for no longer than some time? -/
def LoadsEnd (β : Type) [Backend β] (timeout : Option Duration) : Prop :=
  timeout.isSome = true ∨ ∀ b : β, (Backend.load b).2 ≠ .never

theorem Course.orDefault_eq_error {x : Except SettingsError Settings} {e : SettingsError}
    (h : orDefault x = .error e) : x = .error e ∧ e.isNotReady = false := by
  cases x with
  | ok s => cases h
  | error e' =>
    cases hready : e'.isNotReady with
    | true => simp [orDefault, hready] at h
    | false =>
      simp only [orDefault, hready, Bool.false_eq_true, if_false] at h
      cases h
      exact ⟨rfl, hready⟩

namespace Service

theorem fetchTimeout_notify (r : Service β) (e : WriteEvent) :
    (r.notify e).fetchTimeout = r.fetchTimeout := by
  refine notify_induction (P := fun r' => r'.fetchTimeout = r.fetchTimeout) rfl ?_
  intro r' l h
  cases l <;> exact h

/-- A fetch fails because the store is not ready, or as the load did. -/
theorem awaitFetch_error {name : String} {timeout : Option Duration} {reply : Reply}
    {waited : Duration} {e : SettingsError}
    (h : awaitFetch name timeout reply = some (waited, .error e)) (he : e.isNotReady = false) :
    ∃ delay, reply = .after delay (.error e) := by
  rcases reply_of_awaitFetch h with hreply | ⟨_, heq, hready⟩
  · exact hreply
  · cases heq
    rw [he] at hready
    cases hready

variable [Backend β]

theorem fetchTimeout_carryOut (r : Service β) (a : Act) :
    (r.carryOut a).2.fetchTimeout = r.fetchTimeout := by
  cases a with
  | notify e => exact r.fetchTimeout_notify e
  | enroll | lookUp w | keep w s | forget w | stats | fetch | commit u now | announce e => rfl

/-- Every act but a commit is answered. -/
theorem exists_answer_of_loadsEnd {r : Service β} (h : LoadsEnd β r.fetchTimeout) {a : Act}
    (ha : ∀ u now, a ≠ .commit u now) : ∃ x, (r.carryOut a).1 = some x := by
  cases a with
  | commit u now => exact absurd rfl (ha u now)
  | fetch => exact exists_awaitFetch (h.imp_right fun h => h r.backend) _
  | enroll | lookUp w | keep w s | forget w | stats | notify e | announce e => exact ⟨_, rfl⟩

theorem fetching_eq (r : Service β) (patience : Option Duration) :
    r.fetching patience = (awaitFetch (Backend.name r.backend) r.fetchTimeout
      (Backend.load r.backend).2).bind fun x => (spend patience x.1).map fun p => (x.2, p) := by
  unfold fetching Course.fetch
  rw [perform_act]
  rfl

theorem exists_fetching {r : Service β} (h : LoadsEnd β r.fetchTimeout) :
    ∃ answer, r.fetching none = some (answer, none) := by
  obtain ⟨⟨waited, answer⟩, hanswer⟩ :=
    exists_awaitFetch (h.imp_right fun h => h r.backend) (Backend.name r.backend)
  refine ⟨answer, ?_⟩
  rw [fetching_eq, hanswer]
  rfl

theorem fetching_error {r : Service β} {patience left : Option Duration} {e : SettingsError}
    (h : r.fetching patience = some (.error e, left)) (he : e.isNotReady = false) :
    ∃ delay, (Backend.load r.backend).2 = .after delay (.error e) := by
  rw [fetching_eq] at h
  obtain ⟨⟨waited, answer⟩, hanswer, h⟩ := Option.bind_eq_some_iff.mp h
  obtain ⟨p, -, hp⟩ := Option.map_eq_some_iff.mp h
  cases hp
  exact awaitFetch_error hanswer he

/-! ## The timeout is kept -/

/-- Two of the same service, whose timeout is the given one. -/
def SameWith (timeout : Option Duration) (r q : Service β) : Prop :=
  r = q ∧ r.fetchTimeout = timeout

theorem similar_sameWith (timeout : Option Duration) :
    Similar (SameWith (β := β) timeout) where
  carryOut {r q} h a _ := by
    obtain ⟨rfl, h⟩ := h
    exact ⟨rfl, rfl, (r.fetchTimeout_carryOut a).trans h⟩
  abandon h held := by
    obtain ⟨rfl, h⟩ := h
    exact ⟨rfl, h⟩
  addListener h l := by
    obtain ⟨rfl, h⟩ := h
    exact ⟨rfl, h⟩

/-- A course without a commit is not dropped. -/
theorem ends_play {timeout : Option Duration} (hloads : LoadsEnd β timeout) {c : Course α}
    (hc : c.Only fun a => ∀ u now, a ≠ .commit u now) :
    Ends (fun r : Service β => r.fetchTimeout = timeout) (fun x => x.isSome = true)
      (play c none) := by
  induction hc with
  | done a => exact .done rfl
  | @step c next hact _ ih =>
    simp only [play]
    refine .read fun r hr => .write ((r.fetchTimeout_carryOut c.act).trans hr) ?_
    obtain ⟨⟨waited, x⟩, hanswer⟩ := exists_answer_of_loadsEnd (hr.symm ▸ hloads) hact
    rw [hanswer]
    exact (ih x).hold waited

end Service

namespace Session

/-- Is the session's service one whose timeout is the given one? -/
def Waits (timeout : Option Duration) (s : Session β) : Prop :=
  s.service.fetchTimeout = timeout

theorem Waits.over {timeout : Option Duration} {s : Session β} (h : s.Waits timeout) :
    Over (Service.SameWith timeout) s s :=
  ⟨⟨rfl, h⟩, rfl, rfl, rfl⟩

variable [Backend β] (change : ξ → β → β) (timeout : Option Duration)

theorem ends_move (m : Move ξ) :
    Ends (Waits timeout) (fun _ => True) (move (β := β) change m) := by
  have hchange : ∀ x (r q : Service β), Service.SameWith timeout r q →
      Service.SameWith timeout { r with backend := change x r.backend }
        { q with backend := change x q.backend } := by
    rintro x r q ⟨rfl, hr⟩
    exact ⟨rfl, hr⟩
  exact (move_related (Service.similar_sameWith timeout) hchange m).ends
    (fun s hs => Waits.over hs) fun s t h => h.service.2

variable {timeout}

theorem Waits.after {s : Session β} (h : s.Waits timeout) (ms : List (Move ξ)) :
    (s.after change ms).Waits timeout := by
  induction ms generalizing s with
  | nil => exact h
  | cons m ms ih => exact ih ((ends_move change timeout m).alone h).2

variable (hloads : LoadsEnd β timeout)
include hloads

theorem ends_startUnit (w : WorkerId) :
    Ends (Waits timeout) (fun begun => begun = true) (startUnit (β := β) w) := by
  have hstart : (Course.start w).Only fun a => ∀ u now, a ≠ .commit u now :=
    Course.only_start (fun _ _ => Act.noConfusion) (fun _ _ => Act.noConfusion)
      fun _ _ _ => Act.noConfusion
  have hrun := Service.ends_play hloads hstart
  have hpart : ∀ s : Session β, s.Waits timeout → s.service.fetchTimeout = timeout :=
    fun _ hs => hs
  have hput : ∀ (r : Service β) (s : Session β), r.fetchTimeout = timeout → s.Waits timeout →
      Waits timeout { s with service := r } := fun _ _ hr _ => hr
  exact Ends.map (f := Option.isSome) (hrun.on hpart hput) fun _ h => h

theorem starts_machine (observe : Session β → τ) :
    (machine change observe).Starts (Waits timeout) where
  perform m := ends_move change timeout m
  enter _ _ h := h
  leave _ h := h
  start w := ends_startUnit hloads w
  finish w := by
    have hfinish := run_related (Service.similar_sameWith (β := β) timeout)
      (Course.heedless_finish w) none
    have hends := hfinish.ends (I := Waits timeout) (fun s hs => Waits.over hs) fun s t h =>
      h.service.2
    exact Ends.map (f := fun _ => ()) hends fun _ _ => trivial

variable {s : Session β}

theorem perform_start_eq (hs : s.Waits timeout) (w : WorkerId) :
    ((perform none (.start w)).alone s).1 = some .started := by
  obtain ⟨answer, hanswer⟩ := Service.exists_fetching (hs.symm ▸ hloads)
  rw [perform_start, hanswer]
  rfl

theorem perform_begin_eq (hs : s.Waits timeout) (w : WorkerId) (name : String) :
    ((perform none (.begin w name)).alone s).1 = some (.begun w) := by
  obtain ⟨answer, hanswer⟩ := Service.exists_fetching (hs.symm ▸ hloads)
  rw [perform_begin, beginUnit_alone, hanswer]
  rfl

/-- A unit comes out as its body does in its scope, on the session once the unit has
started. -/
theorem unit_alone (observe : Session β → τ) (hs : s.Waits timeout) (w : WorkerId)
    (body : Strand (Session β) (Trace (Option Outcome) ν τ × Option String)) (ending : Ending ν) :
    let done := (((machine change observe).scope w body).alone ((startUnit w).alone s).2).1
    (((machine change observe).unit w body ending).alone s).1 = (done.1, .of done.2 ending) := by
  intro done
  have hbegun : (((machine change observe).start w).alone s).1 = true :=
    ((ends_startUnit hloads w).alone hs).1
  unfold Machine.unit
  rw [Strand.bind_alone, hbegun, if_pos rfl, Strand.bind_alone]
  dsimp only
  rw [Strand.bind_alone]
  rfl

/-- A body without operations on the service comes to its end, whatever the backend does. -/
theorem unit_alone_of_quiet (observe : Session β → τ) (hs : s.Waits timeout) (w : WorkerId)
    {body : Steps (Move ξ) ν} (hbody : body.OpsAre fun m => m.isQuiet = true) (tries : Bool)
    (ending : Ending ν) :
    (((machine change observe).unit w (body.perform (machine change observe) tries)
      ending).alone s).1.2 = .of none ending := by
  have hstarts := starts_machine change hloads observe
  have hquiet : ∀ m : Move ξ, m.isQuiet = true → Ends (Waits timeout)
      (fun r => (machine change observe).failure? r = none) (move (β := β) change m) := by
    intro m hm
    cases m with
    | use patience o => cases hm
    | enter w | leave | register l | outside x => exact .act fun s hs => ⟨rfl, hs⟩
  have hends := hstarts.unit w (Steps.ends_unstopped hstarts hquiet tries body hbody) ending
  obtain ⟨stopped, hstopped, houtcome⟩ := (hends.alone hs).1
  rw [houtcome]
  exact congrArg (UnitOutcome.of · ending) hstopped

/-! ## Reads -/

theorem exists_get (hs : s.Waits timeout) (w : Option WorkerId) (bypass : Bool) :
    ∃ answer, ((perform none (.get w bypass)).alone s).1 = some (.settings answer) := by
  obtain ⟨answer, hanswer⟩ := Service.exists_fetching (hs.symm ▸ hloads)
  rw [perform_get]
  cases bypass with
  | true =>
    rw [Service.perform_get_bypass, hanswer]
    exact ⟨_, rfl⟩
  | false =>
    cases hentry : s.service.cache.peek? (w.getD s.current) with
    | some x =>
      rw [Service.perform_get_hit hentry]
      exact ⟨_, rfl⟩
    | none =>
      rw [Service.perform_get_miss hentry, hanswer]
      exact ⟨_, rfl⟩

omit hloads

theorem perform_get_of_entry {w : Option WorkerId} {x : Settings}
    (h : s.service.cache.peek? (w.getD s.current) = some x) (patience : Option Duration) :
    ((perform patience (.get w false)).alone s).1 = some (.settings (.ok x)) := by
  rw [perform_get, Service.perform_get_hit h]
  rfl

/-- The failure of a read is that of the load it has asked for. -/
theorem get_error {patience : Option Duration} {w : Option WorkerId} {bypass : Bool}
    {e : SettingsError}
    (h : ((perform patience (.get w bypass)).alone s).1 = some (.settings (.error e))) :
    e.isNotReady = false ∧ (bypass = true ∨ s.service.cache.peek? (w.getD s.current) = none) ∧
      ∃ delay, (Backend.load s.service.backend).2 = .after delay (.error e) := by
  have hasked (h : ((s.service.fetching patience).map fun x => (Course.orDefault x.1, x.2)).map
      (fun x => Outcome.settings x.1) = some (.settings (.error e))) : e.isNotReady = false ∧
        ∃ delay, (Backend.load s.service.backend).2 = .after delay (.error e) := by
    rw [Option.map_map] at h
    obtain ⟨⟨answer, left⟩, hfetching, hanswer⟩ := Option.map_eq_some_iff.mp h
    obtain ⟨rfl, he⟩ := Course.orDefault_eq_error (Outcome.settings.inj hanswer)
    exact ⟨he, Service.fetching_error hfetching he⟩
  rw [perform_get] at h
  cases bypass with
  | true =>
    rw [Service.perform_get_bypass] at h
    exact ⟨(hasked h).1, .inl rfl, (hasked h).2⟩
  | false =>
    cases hentry : s.service.cache.peek? (w.getD s.current) with
    | some x =>
      rw [Service.perform_get_hit hentry] at h
      cases h
    | none =>
      rw [Service.perform_get_miss hentry] at h
      exact ⟨(hasked h).1, .inr rfl, (hasked h).2⟩

end Session
end ScopedSettings
