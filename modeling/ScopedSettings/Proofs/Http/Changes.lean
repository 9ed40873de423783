/-
What becomes of a request to change the settings.

Its write is committed first, and then the settings are read again, as any reader would
read them. So a response of success shows the record at a later moment, of a version at
least, or stands for a store that was not ready by then, and shows the defaults. Without
success either nothing has been committed by the request, or what it has committed could
not be read again.
-/
import ScopedSettings.Proofs.Http.Traffic
import ScopedSettings.Store.Scripted

namespace ScopedSettings.Http

open Concourse

variable {β : Type} [Backend β] {record? : β → Option Settings} {c₀ : Concourse β Response}
  {turns : List Nat} {i : Nat} {q : Request}

/-- A request's write is committed at one of its turns, and at a later one its fetch is
answered. -/
structure Reread (c₀ : Concourse β Response) (turns : List Nat) (i : Nat) (q : Request)
    (before : List Nat) (k : Commit) (mid : List Nat) (x : Except SettingsError Settings) :
    Prop where
  commits : c₀.Commits turns i before k
  update : updateOf q = .ok k.update
  fetches : c₀.Fetches turns i (before ++ i :: mid) x

/-- The versions that a store goes through do not go back from a commit to a later moment. -/
theorem le_version_of_commits (hkeeps : Backend.Keeps record?) {before mid : List Nat}
    {k : Commit} (hcommit : (c₀.after before).commit? i = some k)
    (hfit : c₀.VersionsFit (before ++ i :: mid)) :
    ∃ s, record? (c₀.after (before ++ i :: mid)).service.backend = some s ∧
      k.record.version ≤ s.version := by
  obtain ⟨-, hrecord⟩ := record?_turn_of_commit? hkeeps hcommit
  have hlater : (c₀.after (before ++ [i])).VersionsFit mid := by
    rw [← List.singleton_append, ← List.append_assoc] at hfit
    exact hfit.right
  rw [after_concat] at hlater
  obtain ⟨s, hs, hle⟩ := le_version_after hkeeps hlater hrecord
  refine ⟨s, ?_, hle⟩
  rw [after_append]
  exact hs

theorem trim_of_ne_head (h : q.method ≠ "HEAD") (answer : Response) : trim q answer = answer := by
  unfold trim
  rw [if_neg (by simpa using h)]

theorem reads_of_method (h : q.method = "PUT") : q.reads = false := by
  unfold Request.reads
  rw [h]
  rfl

/-- What becomes of a request to change the settings, whatever the store answers and however
its steps and those of other requests fall. -/
theorem change_answered (hkeeps : Backend.Keeps record?) {r : Service β}
    (hl : .invalidation ∈ r.listeners) {requests : List (Request × Instant)} {now : Instant}
    (hq : requests[i]? = some (q, now)) (hmethod : q.method = "PUT")
    (hpath : q.path = "/api/settings") {response : Response}
    (hresponse : ((ofRequests r requests).after turns).answer? i = some response) :
    let c := ofRequests r requests
    (response.isSuccess = true →
      ∃ before k mid x, Reread c turns i q before k mid x ∧
        ((∃ s, x = .ok s ∧ response = share (settingsResponse s) ∧
            record? (c.after (before ++ i :: mid)).service.backend = some s ∧
            (c.VersionsFit turns → k.record.version ≤ s.version)) ∨
          ∃ e, x = .error e ∧ e.isNotReady = true ∧
            response = share (settingsResponse .default))) ∧
      (response.isSuccess = false →
        (c.Unwritten turns i ∧ ∀ before, before ++ [i] <+: turns →
            record? (c.after (before ++ [i])).service.backend =
              record? (c.after before).service.backend) ∨
          ∃ before k mid e, Reread c turns i q before k mid (.error e) ∧ e.isNotReady = false ∧
            response = share (errorResponse e)) := by
  intro c
  have hplace : Route.of? q.path = some .settings := by
    rw [hpath]
    rfl
  obtain ⟨own, answer, rfl, hanswers⟩ :=
    answers_of_answer? hl hq hplace (by rw [hmethod]; decide) hresponse
  rw [trim_of_ne_head (by rw [hmethod]; decide)]
  cases hanswers with
  | unwritten hunwritten _ hother =>
    have hfailed : (share answer).isSuccess = false := hother (reads_of_method hmethod)
    refine ⟨fun hsuccess => ?_, fun _ => .inl ⟨hunwritten, fun before hbefore => ?_⟩⟩
    · rw [hfailed] at hsuccess
      cases hsuccess
    · rw [after_concat]
      exact record?_turn hkeeps (hunwritten before hbefore)
  | @written before k t x hcommit hupdate hlater hfetch hanswer =>
    obtain ⟨mid, rfl⟩ := hlater
    rw [List.append_assoc, List.singleton_append] at hfetch
    have hreread : Reread c turns i q before k mid x := ⟨hcommit, hupdate, hfetch⟩
    subst hanswer
    cases x with
    | ok s =>
      refine ⟨fun _ => ⟨before, k, mid, .ok s, hreread, .inl ⟨s, rfl, rfl, ?_, fun hfit => ?_⟩⟩, ?_⟩
      · exact hfetch.record?_eq hkeeps
      · obtain ⟨rest, hturns⟩ := hfetch.isPrefix
        rw [← hturns, List.append_assoc] at hfit
        obtain ⟨s', hs', hle⟩ := le_version_of_commits hkeeps hcommit.commit hfit.left
        rw [hfetch.record?_eq hkeeps] at hs'
        cases hs'
        exact hle
      · intro hfailed
        cases hfailed
    | error e =>
      by_cases hready : e.isNotReady = true
      · have horDefault : Course.orDefault (.error e) = .ok .default := if_pos hready
        rw [horDefault]
        refine ⟨fun _ => ⟨before, k, mid, _, hreread, .inr ⟨e, rfl, hready, rfl⟩⟩, ?_⟩
        intro hfailed
        cases hfailed
      · have horDefault : Course.orDefault (.error e) = .error e := if_neg hready
        rw [horDefault]
        refine ⟨fun hsuccess => ?_, fun _ => .inr ⟨before, k, mid, e, hreread, ?_, rfl⟩⟩
        · have hfailed : (share (errorResponse e)).isSuccess = false := isSuccess_errorResponse e
          cases hfailed.symm.trans hsuccess
        · simpa using hready

/-- A request to enable one setting. -/
def enableJira : Request where
  method := "PUT"
  target := "/api/settings"
  headers := [("content-type", "application/json")]
  body := "\x7b\"enable_jira\":true\x7d".toUTF8

/-- A request to change another one. -/
def lowerUploads : Request where
  method := "PUT"
  target := "/api/settings"
  headers := [("content-type", "application/json")]
  body := "\x7b\"max_upload_mb\":5\x7d".toUTF8

/-- Two changes, the second of which is committed before the first reads the settings again. -/
theorem change_answered_between :
    let c := ofRequests Service.seeded [(enableJira, .epoch), (lowerUploads, .epoch)]
    let turns := [0, 0, 0, 0, 0, 1, 1, 1, 1, 1, 0, 0, 0, 0, 0]
    let answer : Settings :=
      { maxUploadMb := 5, enableJira := true, version := 2, updatedAt := some Instant.epoch }
    (c.after turns).answer? 0 = some (share (settingsResponse answer)) ∧
      ∃ before k mid x, Reread c turns 0 enableJira before k mid x ∧
        ((∃ s, x = .ok s ∧ share (settingsResponse answer) = share (settingsResponse s) ∧
            (c.after (before ++ 0 :: mid)).service.backend.record = some s ∧
            (c.VersionsFit turns → k.record.version ≤ s.version)) ∨
          ∃ e, x = .error e ∧ e.isNotReady = true ∧
            share (settingsResponse answer) = share (settingsResponse .default)) := by
  intro c turns answer
  have hresponse : (c.after turns).answer? 0 = some (share (settingsResponse answer)) := by
    decide +kernel
  refine ⟨hresponse, ?_⟩
  exact (change_answered MemoryStore.keeps (List.mem_singleton_self _) rfl rfl (by decide +kernel)
    hresponse).1 rfl

/-- A service on a store whose first load gives the defaults and whose later ones fail; the
update of a commit is applied to the defaults. -/
def unsteady (e : SettingsError) : Service ScriptedStore where
  backend :=
    { loadLines := [.speak ⟨0⟩ (.gives .default), .speak ⟨0⟩ (.fails e)]
      commitLines := [.speak ⟨0⟩ (.applies .default)] }
  fetchTimeout := Config.fetchTimeout {}
  channel := .ofCapacity (Config.eventCapacity {})
  listeners := [.invalidation]

/-- The turns of one request that changes the settings. -/
def wholeChange : List Nat :=
  List.replicate 10 0

/-- Where the store fails once a change has been committed, the response shows a record of an
earlier version than the one committed, or is no success. -/
theorem change_unread :
    let down := ofRequests (unsteady (.storeUnavailable "down")) [(enableJira, .epoch)]
    let broken := ofRequests (unsteady (.serialization "bad")) [(enableJira, .epoch)]
    (∀ e, Service.ofBackend (unsteady e).backend {} = .ok (unsteady e)) ∧
      (down.commits wholeChange).map (·.2.record.version) = [1] ∧
      (down.after wholeChange).answer? 0 = some (share (settingsResponse .default)) ∧
      Settings.default.version = 0 ∧
      (broken.commits wholeChange).map (·.2.record.version) = [1] ∧
      (broken.after wholeChange).answer? 0 =
        some (share (errorResponse (.serialization "bad"))) ∧
      (share (errorResponse (.serialization "bad"))).status = 500 := by
  intro down broken
  exact ⟨fun _ => rfl, by decide +kernel⟩

end ScopedSettings.Http
