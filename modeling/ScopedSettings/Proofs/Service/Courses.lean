/-
What each course of the service comes to, performed without interruption.

One lemma a course, each said through what the backend answers
(`Service.fetching`, `Service.committing`) and what it is afterwards
(`Service.loaded`, `Service.committed`); the proofs about runs use these and
do not look into a course again. All acts but those that ask the backend are
answered at once, and leave the patience as it is (`perform_act_atOnce`).
-/
import ScopedSettings.Service.Session

namespace ScopedSettings

namespace Service

variable {β : Type} [Backend β]

@[simp] theorem spend_zero (patience : Option Duration) : spend patience ⟨0⟩ = some patience := by
  cases patience <;> simp [spend]

theorem perform_act (a : Act) (patience : Option Duration) (r : Service β) :
    perform (Course.act a) patience r =
      ((r.carryOut a).1.bind fun x => (spend patience x.1).map fun p => (x.2, p),
        (r.carryOut a).2) := by
  simp only [Course.act, Procedure.act, perform]
  generalize r.carryOut a = answered
  obtain ⟨answer, r'⟩ := answered
  cases answer with
  | none => rfl
  | some answered =>
    obtain ⟨waited, x⟩ := answered
    dsimp only [Option.bind_some]
    cases spend patience waited <;> rfl

/-- An act that is answered at once is performed whatever the patience, and costs none. -/
theorem perform_act_atOnce {a : Act} {x : a.Answer} {r r' : Service β}
    (h : r.carryOut a = (atOnce x, r')) (patience : Option Duration) :
    perform (Course.act a) patience r = (some (x, patience), r') := by
  simp [perform_act, h, atOnce]

/-! ## The cache -/

theorem perform_lookUp (w : WorkerId) (patience : Option Duration) (r : Service β) :
    perform (Course.lookUp w) patience r =
      (some (r.cache.peek? w, patience), { r with cache := (r.cache.get w).2 }) := by
  rw [← ScopeCache.get_fst]
  exact perform_act_atOnce rfl patience

theorem perform_keep (w : WorkerId) (s : Settings) (patience : Option Duration) (r : Service β) :
    perform (Course.act (Act.keep w s)) patience r =
      (some ((), patience), { r with cache := r.cache.put w s }) :=
  perform_act_atOnce (a := Act.keep w s) rfl patience

theorem perform_forget (w : WorkerId) (patience : Option Duration) (r : Service β) :
    perform (Course.forget w) patience r =
      (some ((), patience), { r with cache := (r.cache.clear w).2 }) := by
  unfold Course.forget
  rw [perform_bind, perform_act_atOnce (a := Act.forget w) rfl]
  rfl

theorem perform_finish (w : WorkerId) (patience : Option Duration) (r : Service β) :
    perform (Course.finish w) patience r =
      (some ((), patience), { r with cache := (r.cache.clear w).2 }) :=
  perform_forget w patience r

/-! ## Asking the backend -/

/-- What a fetch begun now is answered within the patience, and the patience left then. -/
def fetching (r : Service β) (patience : Option Duration) :
    Option (Except SettingsError Settings × Option Duration) :=
  (perform Course.fetch patience r).1

/-- The service once its backend has been asked for the record. -/
def loaded (r : Service β) : Service β :=
  { r with backend := (Backend.load r.backend).1 }

theorem perform_fetch (patience : Option Duration) (r : Service β) :
    perform Course.fetch patience r = (r.fetching patience, r.loaded) := by
  unfold fetching Course.fetch
  rw [perform_act]
  rfl

/-- What the cache holds does not matter to a fetch. -/
@[simp] theorem fetching_cache (r : Service β) (c : ScopeCache Settings)
    (patience : Option Duration) :
    fetching { r with cache := c } patience = r.fetching patience := by
  unfold fetching Course.fetch
  rw [perform_act, perform_act]
  rfl

/-- What a commit begun now is answered within the patience, and the patience left then. -/
def committing (r : Service β) (u : Update) (now : Instant) (patience : Option Duration) :
    Option (Except SettingsError Settings × Option Duration) :=
  (perform (Course.commit u now) patience r).1

/-- The service once its backend has been given an update. -/
def committed (r : Service β) (u : Update) (now : Instant) : Service β :=
  { r with backend := (Backend.commit r.backend u now).1 }

theorem perform_commit (u : Update) (now : Instant) (patience : Option Duration) (r : Service β) :
    perform (Course.commit u now) patience r =
      (r.committing u now patience, r.committed u now) := by
  unfold committing Course.commit
  rw [perform_act]
  rfl

/-- A fetch that is answered at once does not run into its timeout. -/
theorem awaitFetch_now (name : String) (timeout : Option Duration)
    (answer : Except SettingsError Settings) :
    awaitFetch name timeout (.now answer) = atOnce answer := by
  cases timeout <;> rfl

omit [Backend β] in
theorem exists_awaited {reply : Reply} (h : reply ≠ .never) : ∃ x, await reply = some x := by
  cases reply with
  | never => exact absurd rfl h
  | after delay answer => exact ⟨_, rfl⟩

omit [Backend β] in
/-- An answer that has been waited for is the backend's. -/
theorem reply_of_await {reply : Reply} {waited : Duration} {answer : Except SettingsError Settings}
    (h : await reply = some (waited, answer)) : ∃ delay, reply = .after delay answer := by
  cases reply with
  | never => cases h
  | after delay answer =>
    cases h
    exact ⟨_, rfl⟩

omit [Backend β] in
/-- What a fetch is answered is the backend's answer, or the store is not ready for it. -/
theorem reply_of_awaitFetch {name : String} {timeout : Option Duration} {reply : Reply}
    {waited : Duration} {answer : Except SettingsError Settings}
    (h : awaitFetch name timeout reply = some (waited, answer)) :
    (∃ delay, reply = .after delay answer) ∨ ∃ e, answer = .error e ∧ e.isNotReady = true := by
  cases timeout with
  | none => exact .inl (reply_of_await h)
  | some t =>
    cases reply with
    | never =>
      cases h
      exact .inr ⟨_, rfl, rfl⟩
    | after delay answer =>
      unfold awaitFetch at h
      dsimp only at h
      split at h
      · cases h
        exact .inr ⟨_, rfl, rfl⟩
      · cases h
        exact .inl ⟨_, rfl⟩

omit [Backend β] in
/-- A fetch comes to an end if the load does, or if it is not waited for without limit. -/
theorem exists_awaitFetch {timeout : Option Duration} {reply : Reply}
    (h : timeout.isSome = true ∨ reply ≠ .never) (name : String) :
    ∃ x, awaitFetch name timeout reply = some x := by
  cases timeout with
  | none => exact exists_awaited (h.resolve_left Bool.noConfusion)
  | some t =>
    cases reply with
    | never => exact ⟨_, rfl⟩
    | after delay answer =>
      unfold awaitFetch
      dsimp only
      split <;> exact ⟨_, rfl⟩

/-- A load that is answered at once is a fetch's answer, whatever its timeout. -/
theorem fetching_of_now {r : Service β} {answer : Except SettingsError Settings}
    (h : (Backend.load r.backend).2 = .now answer) (patience : Option Duration) :
    r.fetching patience = some (answer, patience) := by
  unfold fetching Course.fetch
  rw [perform_act]
  simp [carryOut, h, awaitFetch_now, atOnce]

/-- A commit that is answered at once is answered within any patience. -/
theorem committing_of_now {r : Service β} {u : Update} {now : Instant}
    {answer : Except SettingsError Settings} (h : (Backend.commit r.backend u now).2 = .now answer)
    (patience : Option Duration) : r.committing u now patience = some (answer, patience) := by
  unfold committing Course.commit
  rw [perform_act]
  simp [carryOut, h, Reply.now, await]

theorem perform_fetchOrDefault (patience : Option Duration) (r : Service β) :
    perform Course.fetchOrDefault patience r =
      ((r.fetching patience).map fun x => (Course.orDefault x.1, x.2), r.loaded) := by
  unfold Course.fetchOrDefault
  rw [perform_bind, perform_fetch]
  cases r.fetching patience <;> rfl

theorem perform_get_bypass (w : WorkerId) (patience : Option Duration) (r : Service β) :
    perform (Course.get w true) patience r =
      ((r.fetching patience).map fun x => (Course.orDefault x.1, x.2), r.loaded) :=
  perform_fetchOrDefault patience r

theorem perform_get_hit {w : WorkerId} {s : Settings} {r : Service β} (h : r.cache.peek? w = some s)
    (patience : Option Duration) :
    perform (Course.get w false) patience r =
      (some (.ok s, patience), { r with cache := (r.cache.get w).2 }) := by
  unfold Course.get
  simp only [Bool.false_eq_true, if_false]
  rw [perform_bind, perform_lookUp, h]
  rfl

theorem perform_get_miss {w : WorkerId} {r : Service β} (h : r.cache.peek? w = none)
    (patience : Option Duration) :
    perform (Course.get w false) patience r =
      ((r.fetching patience).map fun x => (Course.orDefault x.1, x.2),
        { r.loaded with cache := (r.cache.get w).2 }) := by
  unfold Course.get
  simp only [Bool.false_eq_true, if_false]
  rw [perform_bind, perform_lookUp, h]
  dsimp only
  rw [perform_fetchOrDefault, fetching_cache]
  rfl

/-! ## Units of work -/

/-- The service after a unit of a worker has started with what its fetch was answered. -/
def started (r : Service β) (w : WorkerId) (fetched : Option Settings) : Service β :=
  { r.loaded with
    cache :=
      match fetched with
      | some s => (r.cache.clear w).2.put w s
      | none => (r.cache.clear w).2 }

/-- The record a fetch begun now is answered with within the patience, if it is. -/
def fetched? (r : Service β) (patience : Option Duration) : Option Settings :=
  (r.fetching patience).bind fun x => x.1.toOption

theorem perform_start (w : WorkerId) (patience : Option Duration) (r : Service β) :
    perform (Course.start w) patience r =
      ((r.fetching patience).map fun x => ((), x.2), r.started w (r.fetched? patience)) := by
  unfold Course.start
  rw [perform_bind, perform_forget]
  dsimp only
  rw [perform_bind, perform_fetch, fetching_cache]
  unfold started fetched?
  cases h : r.fetching patience with
  | none => rfl
  | some x =>
    obtain ⟨answer, p⟩ := x
    cases answer with
    | error e => rfl
    | ok s => exact perform_keep w s p _

/-! ## Writes -/

omit [Backend β] in
theorem backend_tell (r : Service β) (e : WriteEvent) (l : Listener) :
    (r.tell e l).backend = r.backend := by
  cases l <;> rfl

omit [Backend β] in
/-- What holds after each listener has been told holds when all have been. -/
theorem notify_induction {P : Service β → Prop} {r : Service β} {e : WriteEvent} (h : P r)
    (htell : ∀ r l, P r → P (r.tell e l)) : P (r.notify e) :=
  List.foldlRecOn r.listeners (tell e) (motive := P) h fun r hr l _ => htell r l hr

omit [Backend β] in
theorem backend_notify (r : Service β) (e : WriteEvent) : (r.notify e).backend = r.backend :=
  notify_induction (P := fun r' => r'.backend = r.backend) rfl fun r' l h =>
    (r'.backend_tell e l).trans h

/-- The event of a committed record. -/
def eventOf (w : WorkerId) (s : Settings) (now : Instant) : WriteEvent :=
  { writer := w, version := s.version, settings := s, writtenAt := s.updatedAt.getD now }

/-- The service after a write has been told to listeners and observers. -/
def published (r : Service β) (e : WriteEvent) : Service β :=
  { r.notify e with channel := (r.notify e).channel.send e }

theorem perform_publish (w : WorkerId) (s : Settings) (now : Instant) (patience : Option Duration)
    (r : Service β) :
    perform (Course.publish w s now) patience r =
      (some ((), patience), r.published (eventOf w s now)) := by
  unfold Course.publish
  rw [perform_bind, perform_act_atOnce (a := Act.notify _) rfl]
  exact perform_act_atOnce (a := Act.announce _) rfl patience

theorem perform_write_refused {u : Update} {e : SettingsError} (h : u.validate = .error e)
    (w : WorkerId) (now : Instant) (patience : Option Duration) (r : Service β) :
    perform (Course.write w u now) patience r = (some (.error e, patience), r) := by
  unfold Course.write
  rw [h]
  rfl

/-- The service after a write that was not refused, by the answer to its commit. -/
def written (r : Service β) (w : WorkerId) (u : Update) (now : Instant) :
    Option (Except SettingsError Settings × Option Duration) → Service β
  | some (.ok s, _) => (r.committed u now).published (eventOf w s now)
  | _ => r.committed u now

theorem perform_write_accepted {u : Update} (h : u.validate = .ok ()) (w : WorkerId) (now : Instant)
    (patience : Option Duration) (r : Service β) :
    perform (Course.write w u now) patience r =
      (r.committing u now patience, r.written w u now (r.committing u now patience)) := by
  unfold Course.write
  rw [h]
  dsimp only
  rw [perform_bind, perform_commit]
  cases hc : r.committing u now patience with
  | none => rfl
  | some x =>
    obtain ⟨answer, p⟩ := x
    cases answer with
    | error e => rfl
    | ok s =>
      dsimp only
      rw [perform_bind, perform_publish]
      rfl

/-! ## New services -/

omit [Backend β] in
/-- A service is made with an empty cache and the invalidation listener alone. -/
theorem eq_of_ofBackend {backend : β} {config : Config} {r : Service β}
    (h : ofBackend backend config = .ok r) :
    r = {
      backend
      fetchTimeout := config.fetchTimeout
      channel := .ofCapacity config.eventCapacity
      listeners := [.invalidation] } := by
  unfold ofBackend at h
  cases hv : config.validate with
  | error e =>
    rw [hv] at h
    cases h
  | ok _ =>
    rw [hv] at h
    cases h
    rfl

end Service

/-! ## The acts of courses -/

namespace Course

/-- Is every act of a course of a kind, whatever it is answered? -/
inductive Only (kind : Act → Prop) : Course α → Prop
  | done (a : α) : Only kind (.done a)
  | step {c : Call} {next : c.Answer → Course α} (hact : kind c.act)
    (hnext : ∀ x, Only kind (next x)) : Only kind (.step c next)

variable {kind : Act → Prop}

theorem Only.act {a : Act} (h : kind a) : Only kind (act a) :=
  .step h fun x => .done x

theorem Only.bind {c : Course α} {f : α → Course γ} (h : Only kind c)
    (hf : ∀ a, Only kind (f a)) : Only kind (c >>= f) := by
  induction h with
  | done a => exact hf a
  | step hact _ ih => exact .step hact ih

theorem only_fetch (h : kind .fetch) : Only kind fetch :=
  .act h

theorem only_get {w : WorkerId} (hlookUp : kind (.lookUp w)) (hfetch : kind .fetch)
    (bypass : Bool) : Only kind (get w bypass) := by
  have hstore : Only kind fetchOrDefault := (only_fetch hfetch).bind fun _ => .done _
  cases bypass with
  | true => exact hstore
  | false =>
    refine (Only.act hlookUp).bind fun found => ?_
    cases found with
    | none => exact hstore
    | some s => exact .done _

theorem only_finish {w : WorkerId} (h : kind (.forget w)) : Only kind (finish w) :=
  (Only.act h).bind fun _ => .done _

theorem only_start {w : WorkerId} (hforget : kind (.forget w)) (hfetch : kind .fetch)
    (hkeep : ∀ s, kind (.keep w s)) : Only kind (start w) := by
  refine (only_finish hforget).bind fun _ => (only_fetch hfetch).bind fun answer => ?_
  cases answer with
  | error e => exact .done _
  | ok s => exact .act (hkeep s)

theorem only_publish (hnotify : ∀ e, kind (.notify e)) (hannounce : ∀ e, kind (.announce e))
    (w : WorkerId) (s : Settings) (now : Instant) : Only kind (publish w s now) :=
  (Only.act (hnotify _)).bind fun _ => .act (hannounce _)

theorem only_write {u : Update} {now : Instant} (hcommit : kind (.commit u now))
    (hnotify : ∀ e, kind (.notify e)) (hannounce : ∀ e, kind (.announce e)) (w : WorkerId) :
    Only kind (write w u now) := by
  unfold write
  cases u.validate with
  | error e => exact .done _
  | ok _ =>
    refine (Only.act hcommit).bind fun answer => ?_
    cases answer with
    | error e => exact .done _
    | ok s => exact (only_publish hnotify hannounce w s now).bind fun _ => .done _

end Course
end ScopedSettings
