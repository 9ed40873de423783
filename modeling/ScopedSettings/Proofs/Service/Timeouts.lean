/-
Fetches that are given up after some time.

To a fetch with a timeout a reply that would come too late, or never, is a failure of
the store like any other, and what the store would have answered is not seen later
either. So a service does the same on a store that fails at once instead
(`Reply.promptly`, `Backend.Prompts`): courses on the two wait differently, but come to
the same and leave the services as they were related (`Service.Prompted`), and so do
moves made one after another (`Session.results_prompted`). A store that answers by script
then has each of its late lines replaced by the failure, and a fetch takes one line,
however long that keeps it waiting.
-/
import ScopedSettings.Proofs.Instant.RoundTrip
import ScopedSettings.Proofs.Service.FailurePolicy
import ScopedSettings.Proofs.Service.LeftOut
import ScopedSettings.Store.Scripted

namespace ScopedSettings

open Strand (Matching)

variable {β ξ : Type}

/-! ## Replies and stores without delay -/

/-- A reply given at once, or a failure in its place if it would come too late or never. -/
def Reply.promptly (e : SettingsError) (timeout : Duration) : Reply → Reply
  | .never => .now (.error e)
  | .after delay answer =>
    .now (if timeout.nanos < delay.nanos then .error e else answer)

section replies

variable {timeout delay : Duration}

theorem Reply.promptly_of_late (h : timeout.nanos < delay.nanos)
    (e : SettingsError) (answer : Except SettingsError Settings) :
    (Reply.after delay answer).promptly e timeout = .now (.error e) :=
  congrArg Reply.now (if_pos h)

theorem Reply.promptly_of_inTime (h : ¬ timeout.nanos < delay.nanos)
    (e : SettingsError) (answer : Except SettingsError Settings) :
    (Reply.after delay answer).promptly e timeout = .now answer :=
  congrArg Reply.now (if_neg h)

end replies

theorem Service.awaitFetch_promptly (name : String) (timeout : Duration) (reply : Reply) :
    (awaitFetch name (some timeout) (reply.promptly (slow name timeout) timeout)).map Prod.snd =
      (awaitFetch name (some timeout) reply).map Prod.snd := by
  cases reply with
  | never =>
    rw [Reply.promptly, awaitFetch_now]
    simp only [awaitFetch, atOnce, Option.map_some]
  | after delay answer =>
    by_cases hlate : timeout.nanos < delay.nanos
    · rw [Reply.promptly_of_late hlate, awaitFetch_now]
      simp only [awaitFetch, if_pos hlate, atOnce, Option.map_some]
    · rw [Reply.promptly_of_inTime hlate, awaitFetch_now]
      simp only [awaitFetch, if_neg hlate, atOnce, Option.map_some]

/-- Does a change of a store do nothing but make its loads answer at once, as a fetch with
a timeout takes them? -/
structure Backend.Prompts [Backend β] (timeout : Duration) (f : β → β) : Prop where
  name (b : β) : Backend.name (f b) = Backend.name b
  load (b : β) : Backend.load (f b) =
    (f (Backend.load b).1,
      (Backend.load b).2.promptly (Service.slow (Backend.name b) timeout) timeout)
  commit (b : β) (u : Update) (now : Instant) : Backend.commit (f b) u now =
    (f (Backend.commit b u now).1, (Backend.commit b u now).2)

/-! ## Services on such stores -/

namespace Service

/-- A service with a timeout, and the same service on the store that answers at once. -/
structure Prompted (timeout : Duration) (f : β → β) (r q : Service β) : Prop where
  fetchTimeout : r.fetchTimeout = some timeout
  eq_onStore : q = r.onStore (f r.backend)

variable [Backend β] {timeout : Duration} {f : β → β} {r q : Service β}

/-- The two answer every act the same, at whatever time. -/
theorem Prompted.carryOut (hf : Backend.Prompts timeout f) (h : Prompted timeout f r q) (a : Act) :
    (r.carryOut a).1.map Prod.snd = (q.carryOut a).1.map Prod.snd ∧
      Prompted timeout f (r.carryOut a).2 (q.carryOut a).2 := by
  have htimeout : (r.carryOut a).2.fetchTimeout = some timeout :=
    (r.fetchTimeout_carryOut a).trans h.fetchTimeout
  obtain ⟨hr, rfl⟩ := h
  suffices hsame : (r.carryOut a).1.map Prod.snd =
      ((r.onStore (f r.backend)).carryOut a).1.map Prod.snd ∧
        ((r.onStore (f r.backend)).carryOut a).2 =
          (r.carryOut a).2.onStore (f (r.carryOut a).2.backend) from
    ⟨hsame.1, htimeout, hsame.2⟩
  cases a with
  | enroll | lookUp w | keep w s | forget w | stats | announce e => exact ⟨rfl, rfl⟩
  | fetch =>
    refine ⟨?_, ?_⟩
    · change (awaitFetch (Backend.name r.backend) r.fetchTimeout
          (Backend.load r.backend).2).map Prod.snd =
        (awaitFetch (Backend.name (f r.backend)) r.fetchTimeout
          (Backend.load (f r.backend)).2).map Prod.snd
      rw [hr, hf.name, hf.load, awaitFetch_promptly]
    · change (r.onStore (f r.backend)).onStore (Backend.load (f r.backend)).1 = _
      rw [hf.load]
      rfl
  | commit u now =>
    refine ⟨?_, ?_⟩
    · change _ = (await (Backend.commit (f r.backend) u now).2).map Prod.snd
      rw [hf.commit]
      rfl
    · change (r.onStore (f r.backend)).onStore (Backend.commit (f r.backend) u now).1 = _
      rw [hf.commit]
      rfl
  | notify e =>
    refine ⟨rfl, ?_⟩
    change (r.onStore (f r.backend)).notify e = (r.notify e).onStore (f (r.notify e).backend)
    rw [notify_onStore, backend_notify]

/-- Without a limit to the patience, a course comes to the same on the two. -/
theorem Prompted.perform (hf : Backend.Prompts timeout f) (h : Prompted timeout f r q)
    (c : Course α) :
    (r.perform c none).1 = (q.perform c none).1 ∧
      Prompted timeout f (r.perform c none).2 (q.perform c none).2 := by
  induction c generalizing r q with
  | done a => exact ⟨rfl, h⟩
  | step c next ih =>
    obtain ⟨hanswer, hnext⟩ := h.carryOut hf c.act
    simp only [Service.perform]
    generalize r.carryOut c.act = x at hanswer hnext
    generalize q.carryOut c.act = y at hanswer hnext
    obtain ⟨answer, r'⟩ := x
    obtain ⟨answer', q'⟩ := y
    cases answer with
    | none =>
      obtain rfl := Option.map_eq_none_iff.mp hanswer.symm
      refine ⟨rfl, hnext.fetchTimeout, ?_⟩
      obtain ⟨-, rfl⟩ := hnext
      rfl
    | some answer =>
      obtain ⟨answer', rfl, heq⟩ := Option.map_eq_some_iff.mp hanswer.symm
      obtain ⟨waited, x⟩ := answer
      obtain ⟨waited', x'⟩ := answer'
      obtain rfl : x' = x := heq
      exact ih x' hnext

end Service

/-! ## Sessions on such stores -/

/-- Is the move no operation that is dropped after some time? -/
def Move.IsPatient : Move ξ → Prop
  | .use patience _ => patience = none
  | _ => True

namespace Session

open Service (Prompted)

variable [Backend β] {timeout : Duration} {f : β → β}

theorem run_matching (hf : Backend.Prompts timeout f) (c : Course α) :
    Matching (Over (Prompted timeout f)) (run c none) (run c none) := by
  intro s t h
  rw [run_alone, run_alone]
  obtain ⟨hvalue, hservice⟩ := h.service.perform hf c
  exact ⟨hvalue, { h with service := hservice }⟩

/-- The end of a unit is not waited for. -/
theorem likeness_matching :
    Likeness (Prompted timeout f) fun p q => Matching (Over (Prompted timeout f)) p q where
  of_related h := h.matching
  bind h hf := h.bind hf
  finish w patience := by
    intro s t h
    rw [run_alone, run_alone, Service.perform_finish, Service.perform_finish]
    refine ⟨rfl, { h with service := ⟨h.service.fetchTimeout, ?_⟩ }⟩
    obtain ⟨-, heq⟩ := h.service
    rw [withService_service, withService_service, heq]
    rfl

theorem move_matching (hf : Backend.Prompts timeout f) (change : Empty → β → β)
    {m : Move Empty} (hm : m.IsPatient) :
    Matching (Over (Prompted timeout f)) (move change m) (move change m) := by
  cases m with
  | use patience o =>
    obtain rfl : patience = none := hm
    exact likeness_matching.perform (fun {_ c} _ => run_matching hf c) o
  | enter w => exact .act fun _ _ h => ⟨rfl, h.enter w⟩
  | leave => exact .act fun _ _ h => ⟨rfl, h.leave⟩
  | register l =>
    refine .act fun s t h => ⟨rfl, { h with service := ⟨h.service.fetchTimeout, ?_⟩ }⟩
    change t.service.addListener l = _
    rw [h.service.eq_onStore]
    rfl
  | outside x => exact x.elim

/-- Moves made one after another come to the same on the two, and leave them so. -/
theorem results_prompted (hf : Backend.Prompts timeout f) (change : Empty → β → β)
    {s t : Session β} (h : Over (Prompted timeout f) s t) {ms : List (Move Empty)}
    (hms : ∀ m ∈ ms, m.IsPatient) :
    s.results change ms = t.results change ms ∧
      Over (Prompted timeout f) (s.after change ms) (t.after change ms) := by
  induction ms generalizing s t with
  | nil => exact ⟨rfl, h⟩
  | cons m ms ih =>
    obtain ⟨hm, hms⟩ := List.forall_mem_cons.mp hms
    obtain ⟨hresult, hnext⟩ := move_matching hf change hm s t h
    obtain ⟨hrest, hlast⟩ := ih (s := s.afterMove change m) (t := t.afterMove change m) hnext hms
    refine ⟨?_, hlast⟩
    change s.resultOf change m :: _ = t.resultOf change m :: _
    have hresult : s.resultOf change m = t.resultOf change m := hresult
    rw [hresult, hrest]

omit [Backend β] in
/-- The two are equal but for their stores, of which one is the other changed. -/
theorem Over.inStep {s t : Session β} (h : Over (Prompted timeout f) s t) :
    Over (Service.InStep fun b c => c = f b) s t := by
  have hbackend : t.service.backend = f s.service.backend := by rw [h.service.eq_onStore]; rfl
  exact { h with service := ⟨hbackend, by rw [hbackend]; exact h.service.eq_onStore⟩ }

/-! ## Which operations ask the store -/

/-- Does an operation ask the store for the record? -/
def asks (s : Session β) : Operation → Bool
  | .get w bypass => bypass || (s.service.cache.peek? (w.getD s.current)).isNone
  | .fetch | .start _ | .begin _ _ => true
  | _ => false

/-- Where an operation asks the store, it is asked once; only a write does more to it. -/
theorem backend_perform (s : Session β) (patience : Option Duration) {o : Operation}
    (ho : ∀ w u now, o ≠ .write w u now) :
    ((perform patience o).alone s).2.service.backend =
      if s.asks o then (Backend.load s.service.backend).1 else s.service.backend := by
  cases o with
  | get w bypass =>
    rw [perform_get]
    cases bypass with
    | true =>
      rw [Service.perform_get_bypass]
      rfl
    | false =>
      cases hentry : s.service.cache.peek? (w.getD s.current) with
      | some x =>
        rw [Service.perform_get_hit hentry]
        simp [asks, hentry]
      | none =>
        rw [Service.perform_get_miss hentry]
        simp [asks, hentry, Service.loaded]
  | fetch =>
    rw [perform_fetch]
    rfl
  | write w u now => exact absurd rfl (ho w u now)
  | start w =>
    rw [perform_start]
    rfl
  | succeed w | fail w =>
    first | rw [perform_succeed] | rw [perform_fail]
    rfl
  | begin w name =>
    rw [perform_begin, beginUnit_alone]
    cases s.service.fetching patience with
    | none => rfl
    | some x => exact backend_begun _ w name
  | succeedUnit name | failUnit name | dropUnit name =>
    change ((endUnit name patience).alone s).2.service.backend = _
    rw [endUnit_alone]
    exact backend_closed s name

/-- A write gives the store its update once, or leaves it as it is. -/
theorem backend_write (s : Session β) (patience : Option Duration) (w : Option WorkerId)
    (u : Update) (now : Instant) :
    ((perform patience (.write w u now)).alone s).2.service.backend = s.service.backend ∨
      ((perform patience (.write w u now)).alone s).2.service.backend =
        (Backend.commit s.service.backend u now).1 := by
  rw [perform_write]
  cases hu : u.validate with
  | error e =>
    rw [Service.perform_write_refused hu]
    exact .inl rfl
  | ok _ =>
    rw [Service.perform_write_accepted hu]
    refine .inr ?_
    change (Service.written _ _ _ _ _).backend = _
    unfold Service.written
    split
    · exact Service.backend_notify _ _
    · rfl

/-- Only a write can be waited for in vain, where loads end or are given up. -/
theorem exists_outcome {limit : Option Duration} (hloads : LoadsEnd β limit) {s : Session β}
    (hs : s.Waits limit) {o : Operation} (ho : ∀ w u now, o ≠ .write w u now) :
    ((perform none o).alone s).1.isSome = true := by
  cases o with
  | get w bypass =>
    obtain ⟨answer, hanswer⟩ := exists_get hloads hs w bypass
    rw [hanswer]
    rfl
  | fetch =>
    obtain ⟨answer, hanswer⟩ := Service.exists_fetching (hs.symm ▸ hloads)
    rw [perform_fetch, hanswer]
    rfl
  | write w u now => exact absurd rfl (ho w u now)
  | start w =>
    rw [perform_start_eq hloads hs]
    rfl
  | succeed w | fail w =>
    first | rw [perform_succeed] | rw [perform_fail]
    rfl
  | begin w name =>
    rw [perform_begin_eq hloads hs]
    rfl
  | succeedUnit name | failUnit name | dropUnit name =>
    change ((endUnit name none).alone s).1.isSome = true
    rw [endUnit_alone]
    rfl

end Session

/-! ## Stores that answer by script -/

/-- A line of a script that is answered at once, or a failure in its place if its answer
would come too late or never. -/
def ScriptLine.promptly (e : SettingsError) (timeout : Duration) : ScriptLine → ScriptLine
  | .silence => .speak ⟨0⟩ (.fails e)
  | .speak delay answer =>
    .speak ⟨0⟩ (if timeout.nanos < delay.nanos then .fails e else answer)

namespace ScriptedStore

/-- The store with each line of its script for loads replaced by what a fetch with a timeout
makes of it. -/
def promptly (timeout : Duration) (b : ScriptedStore) : ScriptedStore :=
  { b with
    loadLines := b.loadLines.map (ScriptLine.promptly (Service.slow "script" timeout) timeout) }

theorem nextLine_promptly (e : SettingsError) (timeout : Duration) (lines : List ScriptLine) :
    nextLine (lines.map (ScriptLine.promptly e timeout)) =
      ((nextLine lines).1.promptly e timeout,
        (nextLine lines).2.map (ScriptLine.promptly e timeout)) := by
  match lines with
  | [] => simp [nextLine, ScriptLine.promptly]
  | [line] => rfl
  | line :: second :: rest => rfl

theorem reply_promptly (e : SettingsError) (timeout : Duration) (line : ScriptLine) :
    ScriptLine.reply id (line.promptly e timeout) =
      (ScriptLine.reply id line).promptly e timeout := by
  cases line with
  | silence => rfl
  | speak delay answer =>
    by_cases hlate : timeout.nanos < delay.nanos
    · have hline : (ScriptLine.speak delay answer).promptly e timeout = .speak ⟨0⟩ (.fails e) :=
        congrArg (ScriptLine.speak ⟨0⟩) (if_pos hlate)
      rw [hline]
      cases answer <;> exact (Reply.promptly_of_late hlate e _).symm
    · have hline : (ScriptLine.speak delay answer).promptly e timeout = .speak ⟨0⟩ answer :=
        congrArg (ScriptLine.speak ⟨0⟩) (if_neg hlate)
      rw [hline]
      cases answer <;> exact (Reply.promptly_of_inTime hlate e _).symm

theorem prompts_promptly (timeout : Duration) : Backend.Prompts timeout (promptly timeout) where
  name _ := rfl
  load b := by
    have hname : Backend.name b = "script" := rfl
    change ScriptedStore.load (b.promptly timeout) = _
    rw [hname]
    unfold ScriptedStore.load promptly
    generalize Service.slow "script" timeout = e
    simp only [nextLine_promptly, reply_promptly]
    rfl
  commit _ _ _ := rfl

end ScriptedStore

namespace Session

open Service (Prompted)

/-- A store that is changed by its service only. -/
def unchanged : Empty → β → β :=
  fun x => x.elim

/-- An operation that asks a store for the record takes a line of its script, and no other
operation does. -/
theorem loadLines_perform (s : Session ScriptedStore) (patience : Option Duration)
    (o : Operation) :
    let b := s.service.backend
    let b' := ((perform patience o).alone s).2.service.backend
    b'.loads = b.loads + (if s.asks o then 1 else 0) ∧
      b'.loadLines = if s.asks o then (ScriptedStore.nextLine b.loadLines).2 else b.loadLines := by
  intro b b'
  by_cases hwrite : ∃ w u now, o = .write w u now
  · obtain ⟨w, u, now, rfl⟩ := hwrite
    have h : b' = b ∨ b' = (Backend.commit b u now).1 := s.backend_write patience w u now
    rcases h with h | h <;> rw [h] <;> exact ⟨rfl, rfl⟩
  · have h : b' = if s.asks o then (Backend.load b).1 else b :=
      s.backend_perform patience fun w u now ho => hwrite ⟨w, u, now, ho⟩
    rw [h]
    cases s.asks o with
    | true => exact ⟨rfl, rfl⟩
    | false => exact ⟨rfl, rfl⟩

/-- On a service that gives a fetch up after some time, operations come to the same whether
what a load would answer after that time, or never, is in the script, or in its place the
failure of a store that is not available, with every other answer given at once. Entries,
counters and all else in the service are the same then. Whatever comes next, it comes to an
end unless it is a write, and takes one line of the script if it asks the store, else none. -/
theorem late_answers_unseen {config : Config} {timeout : Duration}
    (htimeout : config.fetchTimeout = some timeout) {store : ScriptedStore}
    {r q : Service ScriptedStore} (hr : Service.ofBackend store config = .ok r)
    (hq : Service.ofBackend (store.promptly timeout) config = .ok q) (thread : WorkerId)
    {ms : List (Move Empty)} (hms : ∀ m ∈ ms, m.IsPatient) :
    let s := (opened r thread).after unchanged ms
    let t := (opened q thread).after unchanged ms
    (opened r thread).results unchanged ms = (opened q thread).results unchanged ms ∧
      s.withoutStore = t.withoutStore ∧
      t.service.backend = s.service.backend.promptly timeout ∧
      ∀ o,
        let s' := s.afterMove unchanged (.use none o)
        ((∀ w u now, o ≠ .write w u now) → (s.resultOf unchanged (.use none o)).isSome = true) ∧
          s'.service.backend.loads = s.service.backend.loads + (if s.asks o then 1 else 0) ∧
          s'.service.backend.loadLines =
            if s.asks o then (ScriptedStore.nextLine s.service.backend.loadLines).2
            else s.service.backend.loadLines := by
  intro s t
  have hopened : Over (Prompted timeout (ScriptedStore.promptly timeout)) (opened r thread)
      (opened q thread) := by
    obtain rfl := Service.eq_of_ofBackend hr
    obtain rfl := Service.eq_of_ofBackend hq
    exact ⟨⟨htimeout, rfl⟩, rfl, rfl, rfl⟩
  have hwaits : s.Waits (some timeout) :=
    Waits.after unchanged hopened.service.fetchTimeout ms
  obtain ⟨hresults, hlast⟩ :=
    results_prompted (ScriptedStore.prompts_promptly timeout) unchanged hopened hms
  refine ⟨hresults, hlast.inStep.withoutStore_eq, hlast.inStep.service.backend, fun o => ⟨?_, ?_⟩⟩
  · exact fun ho => exists_outcome (.inl rfl) hwaits ho
  · exact s.loadLines_perform none o

/-- A store that is silent, late, and then in time. -/
def lateStore : ScriptedStore where
  loadLines := [
    .silence, .speak (.ofMillis 6000) (.gives .default), .speak (.ofMillis 10) (.gives .default)]
  commitLines := [.speak (.ofMillis 20) (.applies .default)]

/-- A unit that starts without an entry, reads, and a write by its worker. -/
def waitingMoves : List (Move Empty) :=
  [.use none (.start ⟨1⟩), .use none (.get (some ⟨1⟩) false), .enter ⟨1⟩,
    .use none (.write none { enableJira := some true } .epoch), .use none (.get none true)]

theorem late_answers_unseen_silence :
    ∃ r q, Service.ofBackend lateStore {} = .ok r ∧
      Service.ofBackend (lateStore.promptly (.ofMillis 5000)) {} = .ok q ∧
        (opened q ⟨0⟩).results unchanged waitingMoves =
          [some .started, some (.settings (.ok .default)), none,
            some (.settings
              (.ok { enableJira := true, version := 1, updatedAt := some Instant.epoch })),
            some (.settings (.ok .default))] ∧
        (opened r ⟨0⟩).results unchanged waitingMoves =
          (opened q ⟨0⟩).results unchanged waitingMoves ∧
        ((opened r ⟨0⟩).after unchanged waitingMoves).withoutStore =
          ((opened q ⟨0⟩).after unchanged waitingMoves).withoutStore := by
  have hr : Service.ofBackend lateStore {} = .ok _ := rfl
  have hq : Service.ofBackend (lateStore.promptly (.ofMillis 5000)) {} = .ok _ := rfl
  have hms : ∀ m ∈ waitingMoves, m.IsPatient := by
    simp [waitingMoves, Move.IsPatient]
  obtain ⟨hresults, hsession, -⟩ := late_answers_unseen rfl hr hq ⟨0⟩ hms
  refine ⟨_, _, hr, hq, ?_, hresults, hsession⟩
  simp only [waitingMoves, results, resultOf, afterMove, move, perform_start, perform_get,
    perform_write]
  rfl

end Session
end ScopedSettings
