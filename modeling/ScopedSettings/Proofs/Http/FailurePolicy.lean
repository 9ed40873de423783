/-
The failure policy, up to the answers of requests.

What a reader is answered is the record it has fetched, or the defaults where the store
was not ready; so its answer never says that the store is unavailable, however the steps
of requests fall (`Http.status_of_get`). With what is so of operations and programs this is
the policy as a whole (`Session.failure_policy`). It holds in every state: only the timeout
of fetches matters, which a service has from the start, and that the cache's invalidation
listens, as it does from the start too.
-/
import ScopedSettings.Proofs.Http.Changes
import ScopedSettings.Proofs.Service.FailurePolicy

namespace ScopedSettings

variable {β ξ τ ν : Type}

namespace Http

open Concourse

theorem status_readResponse (x : Except SettingsError Settings) :
    (readResponse (Course.orDefault x)).status ≠ 503 := by
  cases horDefault : Course.orDefault x with
  | ok s => simp [readResponse, settingsResponse, Response.withHeader, Response.json]
  | error e =>
    obtain ⟨-, he⟩ := Course.orDefault_eq_error horDefault
    cases e with
    | storeUnavailable reason | recordNotFound => cases he
    | validation reason | serialization reason | config reason =>
      simp [readResponse, errorResponse, Response.json, statusOf]

/-- A request to read the settings is not answered that the store is unavailable. -/
theorem status_of_get [Backend β] {r : Service β} (hl : .invalidation ∈ r.listeners)
    {requests : List (Request × Instant)} {i : Nat} {q : Request} {now : Instant}
    (hq : requests[i]? = some (q, now)) (hmethod : q.method = "GET")
    (hpath : q.path = "/api/settings") {turns : List Nat} {response : Response}
    (hresponse : ((ofRequests r requests).after turns).answer? i = some response) :
    response.status ≠ 503 := by
  have hplace : Route.of? q.path = some .settings := by
    rw [hpath]
    rfl
  have hreads : q.reads = true := by
    unfold Request.reads
    rw [hmethod]
    rfl
  have hoptions : q.method ≠ "OPTIONS" := by
    rw [hmethod]
    decide
  have hhead : q.method ≠ "HEAD" := by
    rw [hmethod]
    decide
  obtain ⟨own, answer, rfl, hanswers⟩ := answers_of_answer? hl hq hplace hoptions hresponse
  rw [trim_of_ne_head hhead]
  change answer.status ≠ 503
  cases hanswers with
  | unwritten _ hread _ =>
    obtain ⟨t, x, -, rfl⟩ := hread hreads
    exact status_readResponse x
  | written _ _ _ _ hanswer =>
    rw [hanswer]
    exact status_readResponse _

end Http

namespace Session

open Http (ofRequests)

/-- Whatever state a session is in: units start, and come out as their bodies do, one whose
body has no operation on the service as it was to end; in no program is a unit left unbegun.
Reads fail only with the failure of a load they have asked for, and never because the store
is not ready; requests to read are not answered with 503 either, however the steps of
requests fall. -/
theorem failure_policy [Backend β] {s : Session β} (hloads : LoadsEnd β s.service.fetchTimeout)
    (hl : .invalidation ∈ s.service.listeners) (change : ξ → β → β) (observe : Session β → τ) :
    let m := machine change observe
    (∀ w, ((perform none (.start w)).alone s).1 = some .started ∧
        ∀ name, ((perform none (.begin w name)).alone s).1 = some (.begun w)) ∧
      (∀ w (body : Strand (Session β) (Trace (Option Outcome) ν τ × Option String))
          (ending : Ending ν),
        let done := ((m.scope w body).alone ((startUnit w).alone s).2).1
        ((m.unit w body ending).alone s).1 = (done.1, .of done.2 ending)) ∧
      (∀ w (body : Steps (Move ξ) ν) tries ending, body.OpsAre (fun o => o.isQuiet = true) →
        ((m.unit w (body.perform m tries) ending).alone s).1.2 = .of none ending) ∧
      (∀ (steps : Steps (Move ξ) ν) tries, ∀ e ∈ ((steps.perform m tries).alone s).1.1,
        e.1.Begun) ∧
      (∀ w bypass, ∃ answer,
        ((perform none (.get w bypass)).alone s).1 = some (.settings answer)) ∧
      (∀ patience w bypass e,
        ((perform patience (.get w bypass)).alone s).1 = some (.settings (.error e)) →
          (∀ reason, e ≠ .storeUnavailable reason) ∧ e ≠ .recordNotFound ∧
            (bypass = true ∨ s.service.cache.peek? (w.getD s.current) = none) ∧
            ∃ delay, (Backend.load s.service.backend).2 = .after delay (.error e)) ∧
      (∀ patience w x, s.service.cache.peek? (w.getD s.current) = some x →
        ((perform patience (.get w false)).alone s).1 = some (.settings (.ok x))) ∧
      ∀ requests turns i q now response, requests[i]? = some (q, now) → q.method = "GET" →
        q.path = "/api/settings" →
          ((ofRequests s.service requests).after turns).answer? i = some response →
            response.status ≠ 503 := by
  intro m
  have hwaits : s.Waits s.service.fetchTimeout := rfl
  have hstarts := starts_machine change hloads observe
  refine ⟨?_, ?_, ?_, ?_, ?_, ?_, ?_, ?_⟩
  · exact fun w => ⟨perform_start_eq hloads hwaits w, perform_begin_eq hloads hwaits w⟩
  · exact unit_alone change hloads observe hwaits
  · exact fun w body tries ending hbody =>
      unit_alone_of_quiet change hloads observe hwaits w hbody tries ending
  · exact fun steps tries => ((Steps.ends_begun hstarts tries steps).alone hwaits).1
  · exact exists_get hloads hwaits
  · intro patience w bypass e h
    obtain ⟨he, hasked, hload⟩ := get_error h
    refine ⟨?_, ?_, hasked, hload⟩
    · rintro reason rfl
      cases he
    · rintro rfl
      cases he
  · exact fun patience w x hx => perform_get_of_entry hx patience
  · intro requests turns i q now response hq hmethod hpath hresponse
    exact Http.status_of_get hl hq hmethod hpath hresponse

/-- A service on a store whose first load is never answered and whose later ones find the
record broken. -/
def broken : Service ScriptedStore where
  backend :=
    { loadLines := [.silence, .speak ⟨0⟩ (.fails (.serialization "bad"))], commitLines := [] }
  fetchTimeout := Config.fetchTimeout {}
  channel := .ofCapacity (Config.eventCapacity {})
  listeners := [.invalidation]

/-- The first load is given up, so the unit begins without an entry; the read in it fails as
the next one does. -/
theorem failure_policy_broken :
    let change := fun (_ : Unit) (b : ScriptedStore) => b
    let s := (opened broken ⟨0⟩).after change [.use none (.begin ⟨1⟩ "a"), .enter ⟨1⟩]
    Service.ofBackend broken.backend {} = .ok broken ∧
      LoadsEnd ScriptedStore s.service.fetchTimeout ∧
      .invalidation ∈ s.service.listeners ∧ s.unit? "a" = some ⟨1⟩ ∧
      ((perform none (.get none false)).alone s).1 =
        some (.settings (.error (.serialization "bad"))) ∧
      s.service.cache.peek? ⟨1⟩ = none := by
  intro change s
  have hwaits : s.Waits (Config.fetchTimeout {}) :=
    Waits.after change (s := opened broken ⟨0⟩) rfl _
  have hloads : LoadsEnd ScriptedStore s.service.fetchTimeout := by
    rw [show s.service.fetchTimeout = Config.fetchTimeout {} from hwaits]
    exact .inl rfl
  have hl : .invalidation ∈ s.service.listeners :=
    mem_listeners_after change (s := opened broken ⟨0⟩) (List.mem_singleton_self _) _
  have hs : s = ((perform none (.begin ⟨1⟩ "a")).alone (opened broken ⟨0⟩)).2.enter ⟨1⟩ := rfl
  rw [perform_begin, beginUnit_alone] at hs
  have hunit : s.unit? "a" = some ⟨1⟩ := by
    rw [hs]
    rfl
  have hget : ((perform none (.get none false)).alone s).1 =
      some (.settings (.error (.serialization "bad"))) := by
    rw [hs, perform_get]
    rfl
  have hread := (failure_policy (ν := Unit) hloads hl change fun _ => ()).2.2.2.2.2.1
  refine ⟨rfl, hloads, hl, hunit, hget, ?_⟩
  exact (hread none none false _ hget).2.2.1.resolve_left Bool.noConfusion

end Session
end ScopedSettings
