/-
Requests side by side on a store in memory answer as if each were handled at one moment.

A response of success shows the record of a moment at which its request was under way. For a
change that moment comes after its commit, so it shows what was committed or something later.
The commits follow each other one version at a time.

What is said of versions, that they do not go back and that those committed follow each other,
is restricted to runs in which sixty-four bits hold them (`Concourse.VersionsFit`): behind the
last of them comes zero again. The rest holds whatever the versions are.
-/
import Mathlib.Data.List.Nodup
import ScopedSettings.Proofs.Http.Changes

namespace ScopedSettings.Http

open Concourse

/-! ## A store in memory -/

section

variable {α : Type} {c : Concourse MemoryStore α} {turns : List Nat}

/-- No act switches a store in memory on or off. -/
theorem available_carryOut (r : Service MemoryStore) (a : Act) :
    (r.carryOut a).2.backend.available = r.backend.available := by
  by_cases hfetch : a = .fetch
  · subst hfetch
    rfl
  by_cases hcommit : ∃ u now, a = .commit u now
  · obtain ⟨u, now, rfl⟩ := hcommit
    rw [Service.carryOut_commit]
    split <;> rfl
  · rw [backend_carryOut r hfetch fun u now hu => hcommit ⟨u, now, hu⟩]

theorem available_turn (c : Concourse MemoryStore α) (i : Nat) :
    (c.turn i).service.backend.available = c.service.backend.available := by
  cases hact : c.act? i with
  | none => rw [turn_of_idle hact]
  | some a => rw [service_turn hact, available_carryOut]

theorem available_after (c : Concourse MemoryStore α) (turns : List Nat) :
    (c.after turns).service.backend.available = c.service.backend.available := by
  induction turns generalizing c with
  | nil => rfl
  | cons i turns ih => exact (ih (c.turn i)).trans (available_turn c i)

/-- With the store available, what a reader goes on with is the record, or the defaults. -/
theorem orDefault_of_fetches (havailable : c.service.backend.available = true) {i : Nat}
    {t : List Nat} {x : Except SettingsError Settings} (h : c.Fetches turns i t x) :
    Course.orDefault x = .ok ((c.after t).service.backend.record.getD .default) := by
  obtain ⟨waited, hanswer⟩ := h.carryOut
  rw [Service.carryOut_fetch] at hanswer
  have hx : (c.after t).service.backend.answer = x := by
    cases hanswer
    rfl
  have hon : (c.after t).service.backend.available = true := by
    rw [available_after, havailable]
  rw [← hx]
  unfold MemoryStore.answer
  rw [if_pos hon]
  cases (c.after t).service.backend.record <;> rfl

end

/-! ## Requests under way -/

/-- A request is under way at a moment: it has had a turn, and is not answered. -/
structure UnderWay (c : Concourse MemoryStore Response) (t : List Nat) (i : Nat) : Prop where
  begun : i ∈ t
  unanswered : (c.after t).answer? i = none

variable {r : Service MemoryStore} {requests : List (Request × Instant)} {turns : List Nat}
  {i : Nat} {q : Request} {now : Instant}

/-- A request to the settings whose fetch is next is under way. -/
theorem underWay_of_fetches (hq : requests[i]? = some (q, now))
    (hplace : Route.of? q.path = some .settings) (hmethod : q.method ≠ "OPTIONS") {t : List Nat}
    {x : Except SettingsError Settings} (h : (ofRequests r requests).Fetches turns i t x) :
    UnderWay (ofRequests r requests) t i := by
  refine ⟨?_, answer?_of_act? h.act⟩
  by_contra hnone
  have hfirst : firstStages requests i = .arrived q now := firstStages_of_place hq hplace hmethod
  have hact : (ofRequests r requests).act? i = some .fetch := by
    have hact := h.act
    unfold act? at hact ⊢
    rw [course?_after_of_not_mem hnone] at hact
    exact hact
  have hstage := (isAt_firstStages r requests).act?_eq hact
  rw [hfirst] at hstage
  cases hstage

/-- A request that commits a write does so once. -/
theorem commits_eq_nil {c : Concourse MemoryStore Response} {before mid : List Nat} {k : Commit}
    (h : c.Commits turns i before k) (hmid : before ++ i :: mid <+: turns)
    (hown : ∀ p ∈ (c.after (before ++ [i])).commits mid, p.1 = i) :
    (c.after (before ++ [i])).commits mid = [] := by
  refine List.eq_nil_iff_forall_not_mem.mpr fun p hp => ?_
  obtain ⟨j, k'⟩ := p
  obtain rfl : j = i := hown _ hp
  obtain ⟨t, ht, hk⟩ := exists_of_mem_commits hp
  rw [← after_append] at hk
  have hprefix : before ++ [j] ++ t ++ [j] <+: turns := by
    refine List.IsPrefix.trans ?_ hmid
    rw [List.append_assoc, List.append_assoc, List.prefix_append_right_inj]
    exact List.cons_prefix_cons.mpr ⟨rfl, ht⟩
  have hne : before ++ [j] ++ t ≠ before := by
    intro heq
    have hlength := congrArg List.length heq
    simp at hlength
  rw [h.only _ hprefix hne] at hk
  cases hk

/-- What the store has at a moment after a request's commit: nothing older, and what was
committed, unless another request has committed something since. -/
theorem record_after_commit {c : Concourse MemoryStore Response} {before mid : List Nat}
    {k : Commit} (h : c.Commits turns i before k) (hmid : before ++ i :: mid <+: turns) :
    (c.VersionsFit turns → k.record.version ≤
        ((c.after (before ++ i :: mid)).service.backend.record.getD .default).version) ∧
      ((∀ p ∈ (c.after (before ++ [i])).commits mid, p.1 = i) →
        (c.after (before ++ i :: mid)).service.backend.record.getD .default = k.record) := by
  refine ⟨fun hfit => ?_, fun hown => ?_⟩
  · obtain ⟨rest, rfl⟩ := hmid
    obtain ⟨s, hs, hle⟩ := le_version_of_commits MemoryStore.keeps h.commit hfit.left
    rw [hs]
    exact hle
  · obtain ⟨-, hrecord⟩ := record?_turn_of_commit? MemoryStore.keeps h.commit
    have hsame := record?_after MemoryStore.keeps (commits_eq_nil h hmid hown)
    rw [← after_append, List.append_assoc, List.singleton_append, after_concat, hrecord] at hsame
    rw [hsame]
    rfl

/-- A response of success shows the record of a moment at which its request was under way, or
the defaults if there was none. For a change that moment comes after its commit, and the
record has what it has set, unless another change came between. While sixty-four bits hold
them, versions do not go back and those committed follow each other. -/
theorem responses_linearized (hm : r.backend.available = true) (hl : .invalidation ∈ r.listeners)
    (hrequests : ∀ q ∈ requests,
      (q.1.method = "GET" ∨ q.1.method = "PUT") ∧ q.1.path = "/api/settings")
    (turns : List Nat) :
    let c := ofRequests r requests
    (∀ i q now response, requests[i]? = some (q, now) →
        (c.after turns).answer? i = some response → response.status = 200 →
        ∃ t s, t <+: turns ∧ UnderWay c t i ∧
          (c.after t).service.backend.record.getD .default = s ∧
          response = share (settingsResponse s) ∧
          (q.method = "PUT" → ∃ before k mid, t = before ++ i :: mid ∧
            c.Commits turns i before k ∧ updateOf q = .ok k.update ∧
            k.record =
              k.update.apply ((c.after before).service.backend.record.getD .default) k.now ∧
            (c.VersionsFit turns → k.record.version ≤ s.version) ∧
            ((∀ p ∈ (c.after (before ++ [i])).commits mid, p.1 = i) → s = k.record))) ∧
      (c.VersionsFit turns →
        (c.commits turns).map (fun k => k.2.record.version.toNat) =
            List.range' ((r.backend.record.getD .default).version.toNat + 1)
              (c.commits turns).length ∧
          ((c.commits turns).map fun k => k.2.record.version).Nodup) := by
  intro c
  refine ⟨?_, fun hfit => ?_⟩
  · intro i q now response hq hresponse hstatus
    obtain ⟨hmethod, hpath⟩ := hrequests _ (List.mem_of_getElem? hq)
    dsimp only at hmethod hpath
    have hplace : Route.of? q.path = some .settings := by
      rw [hpath]
      rfl
    have hoptions : q.method ≠ "OPTIONS" := by
      rcases hmethod with h | h <;> (rw [h]; decide)
    have hhead : q.method ≠ "HEAD" := by
      rcases hmethod with h | h <;> (rw [h]; decide)
    obtain ⟨own, answer, rfl, hanswers⟩ := answers_of_answer? hl hq hplace hoptions hresponse
    rw [trim_of_ne_head hhead] at hstatus ⊢
    have hok : answer.isSuccess = true := by
      have hstatus : answer.status = 200 := hstatus
      unfold Response.isSuccess
      rw [hstatus]
      rfl
    have hshown {t : List Nat} {x : Except SettingsError Settings} (hfetch : c.Fetches turns i t x)
        (hanswer : answer = readResponse (Course.orDefault x)) :
        share answer =
          share (settingsResponse ((c.after t).service.backend.record.getD .default)) := by
      rw [hanswer, orDefault_of_fetches hm hfetch]
      rfl
    cases hanswers with
    | unwritten hunwritten hread hother =>
      have hreads : q.reads = true := by
        by_contra hnot
        cases hok.symm.trans (hother (by simpa using hnot))
      obtain ⟨t, x, hfetch, hanswer⟩ := hread hreads
      refine ⟨t, _, (List.prefix_append t [i]).trans hfetch.isPrefix,
        underWay_of_fetches hq hplace hoptions hfetch, rfl, hshown hfetch hanswer, fun hput => ?_⟩
      cases hreads.symm.trans (reads_of_method hput)
    | @written before k t x hcommit hupdate hlater hfetch hanswer =>
      refine ⟨t, _, (List.prefix_append t [i]).trans hfetch.isPrefix,
        underWay_of_fetches hq hplace hoptions hfetch, rfl, hshown hfetch hanswer, fun _ => ?_⟩
      obtain ⟨mid, rfl⟩ := hlater
      rw [List.append_assoc, List.singleton_append] at hfetch ⊢
      obtain ⟨happly, -⟩ := record?_turn_of_commit? MemoryStore.keeps hcommit.commit
      have hlater := record_after_commit hcommit ((List.prefix_append _ [i]).trans hfetch.isPrefix)
      exact ⟨before, k, mid, rfl, hcommit, hupdate, happly, hlater⟩
  · have hversions := versions_commits MemoryStore.keeps hfit
    refine ⟨hversions, List.Nodup.of_map UInt64.toNat ?_⟩
    rw [List.map_map]
    change ((c.commits turns).map fun k => k.2.record.version.toNat).Nodup
    rw [hversions]
    exact List.nodup_range'

def readSettings : Request where
  method := "GET"
  target := "/api/settings"

/-- Two changes and a read. -/
def threeRequests : List (Request × Instant) :=
  [(enableJira, .epoch), (lowerUploads, .epoch), (readSettings, .epoch)]

/-- The read is begun first and loads between the commits; the change that commits first
reads again after the second commit. -/
def threeInTurn : List Nat :=
  [2, 2, 0, 0, 0, 0, 0, 2, 1, 1, 1, 2, 1, 1, 0, 0, 0, 1, 2, 2, 0, 0, 1, 1, 1, 1]

/-- The record once both changes are committed. -/
def bothChanged : Settings :=
  { maxUploadMb := 5, enableJira := true, version := 2, updatedAt := some Instant.epoch }

theorem responses_linearized_three :
    let c := ofRequests Service.seeded threeRequests
    Service.ofBackend Service.seeded.backend {} = .ok .seeded ∧
      (c.after threeInTurn).answer? 2 =
        some (share (settingsResponse
          { enableJira := true, version := 1, updatedAt := some Instant.epoch })) ∧
      (∃ t s, t <+: threeInTurn ∧ UnderWay c t 0 ∧
        (c.after t).service.backend.record.getD .default = s ∧
        share (settingsResponse bothChanged) = share (settingsResponse s)) ∧
      (c.commits threeInTurn).map (fun k => k.2.record.version.toNat) =
        List.range' 1 (c.commits threeInTurn).length := by
  intro c
  have hl : .invalidation ∈ Service.seeded.listeners := List.mem_singleton_self _
  have hrequests : ∀ q ∈ threeRequests,
      (q.1.method = "GET" ∨ q.1.method = "PUT") ∧ q.1.path = "/api/settings" := by
    decide +kernel
  have hfit : c.VersionsFit threeInTurn := by decide +kernel
  have hanswer : (c.after threeInTurn).answer? 0 = some (share (settingsResponse bothChanged)) := by
    decide +kernel
  obtain ⟨hresponses, hversions⟩ :=
    responses_linearized rfl hl hrequests threeInTurn
  obtain ⟨t, s, ht, hunder, hs, hshown, -⟩ :=
    hresponses 0 enableJira .epoch _ rfl hanswer rfl
  exact ⟨rfl, by decide +kernel, ⟨t, s, ht, hunder, hs, hshown⟩, (hversions hfit).1⟩

end ScopedSettings.Http
