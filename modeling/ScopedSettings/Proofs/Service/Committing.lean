/-
The record of a store through turns of callers side by side.

What a store that keeps a record does at its loads and commits (`Backend.Keeps`) is all
there is to it: a turn that commits a write leaves the record updated, and any other leaves
it as it was. So versions follow each other in the order of the commits
(`Concourse.versions_commits`), and what is fetched after a commit is not older than what was
committed. A moment is named by the turns before it.
-/
import ScopedSettings.Proofs.Service.Turns
import ScopedSettings.Proofs.Service.WriteHistory

namespace ScopedSettings

/-- A store keeps a record: a load gives no other and leaves it, a commit that succeeds gives
and leaves the record updated, and one that does not leaves it. -/
structure Backend.Keeps [Backend β] (record? : β → Option Settings) : Prop where
  load (b : β) : record? (load b).1 = record? b
  loaded {b : β} {delay : Duration} {s : Settings} (h : (Backend.load b).2 = .after delay (.ok s)) :
    record? b = some s
  committed {b : β} {u : Update} {now : Instant} {delay : Duration} {s : Settings}
    (h : (commit b u now).2 = .after delay (.ok s)) :
    s = u.apply ((record? b).getD .default) now ∧ record? (commit b u now).1 = some s
  failed {b : β} {u : Update} {now : Instant}
    (h : ∀ delay s, (commit b u now).2 ≠ .after delay (.ok s)) :
    record? (commit b u now).1 = record? b

theorem MemoryStore.keeps : Backend.Keeps fun m : MemoryStore => m.record where
  load _ := rfl
  loaded {b _ s} h := by
    have hanswer : b.answer = .ok s := by
      have hnow : Reply.now b.answer = .after _ (.ok s) := h
      injection hnow
    exact answer_eq_ok hanswer
  committed {b u now _ s} h := by
    change (b.commit u now).2 = _ at h
    change s = _ ∧ (b.commit u now).1.record = _
    rw [commit_eq] at h ⊢
    split at h
    · cases h
      rename_i havailable
      rw [if_pos havailable]
      exact ⟨rfl, rfl⟩
    · cases h
  failed {b u now} h := by
    change (b.commit u now).1.record = _
    rw [commit_eq]
    split
    · rename_i havailable
      refine absurd ?_ (h ⟨0⟩ (u.apply (b.record.getD .default) now))
      change (b.commit u now).2 = _
      rw [commit_eq, if_pos havailable]
      rfl
    · rfl

namespace Service

/-- A service on a store in memory with the default record. -/
def seeded : Service MemoryStore where
  backend := { record := some .default }
  fetchTimeout := Config.fetchTimeout {}
  channel := .ofCapacity (Config.eventCapacity {})
  listeners := [.invalidation]

theorem carryOut_fetch (r : Service MemoryStore) :
    (r.carryOut .fetch).1 = atOnce r.backend.answer :=
  awaitFetch_now _ _ _

theorem carryOut_commit (r : Service MemoryStore) (u : Update) (now : Instant) :
    r.carryOut (.commit u now) =
      if r.backend.available then
        (atOnce (.ok (u.apply (r.backend.record.getD .default) now)),
          { r with
            backend :=
              { r.backend with record := some (u.apply (r.backend.record.getD .default) now) } })
      else (atOnce (.error MemoryStore.offline), r) := by
  change (await (r.backend.commit u now).2, { r with backend := (r.backend.commit u now).1 }) = _
  rw [MemoryStore.commit_eq]
  split <;> rfl

end Service

namespace Concourse

variable {β α : Type} [Backend β] {c : Concourse β α} {record? : β → Option Settings}

/-- The write that a caller's turn commits, if it does. -/
def commit? (c : Concourse β α) (i : Nat) : Option Commit :=
  match c.act? i with
  | some (.commit u now) =>
    match (c.service.carryOut (.commit u now)).1 with
    | some (_, .ok s) => some ⟨u, now, s⟩
    | some (_, .error _) | none => none
  | _ => none

/-- The writes that turns commit, in order, with whose they are. -/
def commits (c : Concourse β α) : List Nat → List (Nat × Commit)
  | [] => []
  | i :: turns => ((c.commit? i).map (i, ·)).toList ++ (c.turn i).commits turns

/-- No turn takes the version past what sixty-four bits hold. -/
def VersionsFit (c : Concourse β α) (turns : List Nat) : Prop :=
  ∀ k ∈ c.commits turns, k.2.record.version ≠ 0

instance (c : Concourse β α) (turns : List Nat) : Decidable (c.VersionsFit turns) :=
  inferInstanceAs (Decidable (∀ k ∈ c.commits turns, k.2.record.version ≠ 0))

theorem commits_append (c : Concourse β α) (turns turns' : List Nat) :
    c.commits (turns ++ turns') = c.commits turns ++ (c.after turns).commits turns' := by
  induction turns generalizing c with
  | nil => rfl
  | cons i turns ih =>
    rw [List.cons_append, commits, commits, ih, List.append_assoc]
    rfl

theorem VersionsFit.left {turns turns' : List Nat} (h : c.VersionsFit (turns ++ turns')) :
    c.VersionsFit turns := by
  intro k hk
  refine h k ?_
  rw [commits_append]
  exact List.mem_append_left _ hk

theorem VersionsFit.right {turns turns' : List Nat} (h : c.VersionsFit (turns ++ turns')) :
    (c.after turns).VersionsFit turns' := by
  intro k hk
  refine h k ?_
  rw [commits_append]
  exact List.mem_append_right _ hk

theorem VersionsFit.head {i : Nat} {turns : List Nat} {k : Commit} (h : c.VersionsFit (i :: turns))
    (hk : c.commit? i = some k) : k.record.version ≠ 0 := by
  refine h (i, k) ?_
  rw [commits, hk]
  exact List.mem_cons_self

theorem commit?_eq_some_iff {i : Nat} {k : Commit} :
    c.commit? i = some k ↔ c.act? i = some (.commit k.update k.now) ∧
      ∃ waited, (c.service.carryOut (.commit k.update k.now)).1 = some (waited, .ok k.record) := by
  unfold commit?
  constructor
  · intro h
    split at h
    · rename_i u now hact
      split at h
      · rename_i waited s hanswer
        cases h
        exact ⟨hact, waited, hanswer⟩
      all_goals cases h
    · cases h
  · rintro ⟨hact, waited, hanswer⟩
    rw [hact]
    dsimp only
    rw [hanswer]

/-- A commit that is answered is answered by the store. -/
theorem reply_of_commit {r : Service β} {u : Update} {now : Instant} {waited : Duration}
    {answer : Except SettingsError Settings}
    (h : (r.carryOut (.commit u now)).1 = some (waited, answer)) :
    ∃ delay, (Backend.commit r.backend u now).2 = .after delay answer :=
  Service.reply_of_await h

theorem carryOut_of_reply {r : Service β} {u : Update} {now : Instant} {delay : Duration}
    {answer : Except SettingsError Settings}
    (h : (Backend.commit r.backend u now).2 = .after delay answer) :
    (r.carryOut (.commit u now)).1 = some (delay, answer) := by
  change Service.await (Backend.commit r.backend u now).2 = _
  rw [h]
  rfl

/-- Only a fetch and a commit touch the store. -/
theorem backend_carryOut (r : Service β) {a : Act} (hfetch : a ≠ .fetch)
    (hcommit : ∀ u now, a ≠ .commit u now) : (r.carryOut a).2.backend = r.backend := by
  cases a with
  | fetch => exact absurd rfl hfetch
  | commit u now => exact absurd rfl (hcommit u now)
  | notify e => exact r.backend_notify e
  | enroll | lookUp w | keep w s | forget w | stats | announce e => rfl

theorem record?_turn_of_commit? (hkeeps : Backend.Keeps record?) {i : Nat} {k : Commit}
    (h : c.commit? i = some k) :
    k.record = k.update.apply ((record? c.service.backend).getD .default) k.now ∧
      record? (c.turn i).service.backend = some k.record := by
  obtain ⟨hact, waited, hanswer⟩ := commit?_eq_some_iff.mp h
  obtain ⟨delay, hreply⟩ := reply_of_commit hanswer
  rw [service_turn hact]
  exact hkeeps.committed hreply

/-- A turn that commits no write leaves the record. -/
theorem record?_turn (hkeeps : Backend.Keeps record?) {i : Nat} (h : c.commit? i = none) :
    record? (c.turn i).service.backend = record? c.service.backend := by
  cases hact : c.act? i with
  | none => rw [turn_of_idle hact]
  | some a =>
    rw [service_turn hact]
    by_cases hfetch : a = .fetch
    · subst hfetch
      exact hkeeps.load _
    by_cases hcommit : ∃ u now, a = .commit u now
    · obtain ⟨u, now, rfl⟩ := hcommit
      refine hkeeps.failed fun delay s hreply => ?_
      have hk : c.commit? i = some ⟨u, now, s⟩ :=
        commit?_eq_some_iff.mpr ⟨hact, _, carryOut_of_reply hreply⟩
      rw [h] at hk
      cases hk
    · rw [backend_carryOut _ hfetch fun u now hu => hcommit ⟨u, now, hu⟩]

/-- Without a commit among them, turns leave the record. -/
theorem record?_after (hkeeps : Backend.Keeps record?) {turns : List Nat}
    (h : c.commits turns = []) :
    record? (c.after turns).service.backend = record? c.service.backend := by
  induction turns generalizing c with
  | nil => rfl
  | cons i turns ih =>
    rw [commits, List.append_eq_nil_iff] at h
    have hnone : c.commit? i = none := by simpa using h.1
    exact (ih h.2).trans (record?_turn hkeeps hnone)

/-- A record stays or gives way to a later version at a turn. -/
theorem le_version_turn (hkeeps : Backend.Keeps record?) {i : Nat} (hfit : c.VersionsFit [i])
    {s : Settings} (hs : record? c.service.backend = some s) :
    ∃ s', record? (c.turn i).service.backend = some s' ∧ s.version ≤ s'.version := by
  cases hk : c.commit? i with
  | none => exact ⟨s, (record?_turn hkeeps hk).trans hs, UInt64.le_refl _⟩
  | some k =>
    obtain ⟨happly, hrecord⟩ := record?_turn_of_commit? hkeeps hk
    rw [hs] at happly
    have happly : k.record = k.update.apply s k.now := happly
    have hle := Update.le_version_apply (happly ▸ hfit.head hk)
    exact ⟨k.record, hrecord, happly ▸ hle⟩

theorem le_version_after (hkeeps : Backend.Keeps record?) {turns : List Nat}
    (hfit : c.VersionsFit turns) {s : Settings} (hs : record? c.service.backend = some s) :
    ∃ s', record? (c.after turns).service.backend = some s' ∧ s.version ≤ s'.version := by
  induction turns generalizing c s with
  | nil => exact ⟨s, hs, UInt64.le_refl _⟩
  | cons i turns ih =>
    have hsplit : c.VersionsFit ([i] ++ turns) := hfit
    obtain ⟨s', hs', hle⟩ := le_version_turn hkeeps hsplit.left hs
    obtain ⟨s'', hs'', hle'⟩ := ih hsplit.right hs'
    exact ⟨s'', hs'', UInt64.le_trans hle hle'⟩

/-- The versions of what turns commit follow each other, beginning after the version there
is. -/
theorem versions_commits (hkeeps : Backend.Keeps record?) {turns : List Nat}
    (hfit : c.VersionsFit turns) :
    (c.commits turns).map (fun k => k.2.record.version.toNat) =
      List.range' (((record? c.service.backend).getD .default).version.toNat + 1)
        (c.commits turns).length := by
  induction turns generalizing c with
  | nil => rfl
  | cons i turns ih =>
    have hsplit : c.VersionsFit ([i] ++ turns) := hfit
    have ih := ih hsplit.right
    change ((c.turn i).commits turns).map _ =
      List.range' (((record? (c.turn i).service.backend).getD .default).version.toNat + 1)
        ((c.turn i).commits turns).length at ih
    rw [commits]
    cases hk : c.commit? i with
    | none =>
      rw [record?_turn hkeeps hk] at ih
      exact ih
    | some k =>
      obtain ⟨happly, hrecord⟩ := record?_turn_of_commit? hkeeps hk
      have hcount := Update.version_apply (happly ▸ hfit.head hk)
      rw [hrecord, Option.getD_some, happly, hcount] at ih
      have hversion := congrArg (fun s : Settings => s.version.toNat) happly
      change (k.record.version.toNat :: ((c.turn i).commits turns).map _) =
        List.range' _ (((c.turn i).commits turns).length + 1)
      rw [List.range'_succ, ih]
      exact congrArg (· :: _) (hversion.trans hcount)

/-! ## Moments -/

/-- Among the turns of a caller is one, after the given ones before it, that commits a write,
and no other does. -/
structure Commits (c : Concourse β α) (turns : List Nat) (i : Nat) (before : List Nat)
    (k : Commit) : Prop where
  isPrefix : before ++ [i] <+: turns
  commit : (c.after before).commit? i = some k
  only (t : List Nat) (h : t ++ [i] <+: turns) (hne : t ≠ before) : (c.after t).commit? i = none

/-- Among the turns is one of a caller, after the given ones before it, whose fetch is
answered. -/
structure Fetches (c : Concourse β α) (turns : List Nat) (i : Nat) (before : List Nat)
    (answer : Except SettingsError Settings) : Prop where
  isPrefix : before ++ [i] <+: turns
  act : (c.after before).act? i = some .fetch
  carryOut : ∃ waited, ((c.after before).service.carryOut .fetch).1 = some (waited, answer)

/-- No turn of a caller commits a write. -/
def Unwritten (c : Concourse β α) (turns : List Nat) (i : Nat) : Prop :=
  ∀ before, before ++ [i] <+: turns → (c.after before).commit? i = none

variable {turns : List Nat} {i : Nat} {before : List Nat}

theorem Fetches.concat {answer : Except SettingsError Settings}
    (h : c.Fetches turns i before answer) (j : Nat) : c.Fetches (turns ++ [j]) i before answer :=
  { h with isPrefix := h.isPrefix.trans (List.prefix_append turns [j]) }

/-- A turn among others and one more is the last of them, or among the others. -/
theorem prefix_concat_cases {t : List Nat} {j : Nat} (h : t ++ [i] <+: turns ++ [j]) :
    t = turns ∧ j = i ∨ t ++ [i] <+: turns := by
  rcases List.prefix_concat_iff.mp h with heq | hprefix
  · obtain ⟨rfl, hi⟩ := List.append_inj' heq rfl
    cases hi
    exact .inl ⟨rfl, rfl⟩
  · exact .inr hprefix

theorem Unwritten.concat (h : c.Unwritten turns i) {j : Nat}
    (hj : j = i → (c.after turns).commit? i = none) : c.Unwritten (turns ++ [j]) i := by
  intro t ht
  rcases prefix_concat_cases ht with ⟨rfl, hji⟩ | ht
  · exact hj hji
  · exact h t ht

theorem Commits.concat {k : Commit} (h : c.Commits turns i before k) {j : Nat}
    (hj : j = i → (c.after turns).commit? i = none) : c.Commits (turns ++ [j]) i before k where
  isPrefix := h.isPrefix.trans (List.prefix_append turns [j])
  commit := h.commit
  only t ht hne := by
    rcases prefix_concat_cases ht with ⟨rfl, hji⟩ | ht
    · exact hj hji
    · exact h.only t ht hne

/-- A caller that has committed nothing commits a write now. -/
theorem Unwritten.commits (h : c.Unwritten turns i) {k : Commit}
    (hk : (c.after turns).commit? i = some k) : c.Commits (turns ++ [i]) i turns k where
  isPrefix := List.prefix_refl _
  commit := hk
  only t ht hne := by
    rcases prefix_concat_cases ht with ⟨rfl, -⟩ | ht
    · exact absurd rfl hne
    · exact h t ht

/-- What turns have committed, one of them has. -/
theorem exists_of_mem_commits {k : Commit} (h : (i, k) ∈ c.commits turns) :
    ∃ t, t ++ [i] <+: turns ∧ (c.after t).commit? i = some k := by
  induction turns generalizing c with
  | nil => cases h
  | cons j turns ih =>
    rw [commits, List.mem_append] at h
    rcases h with h | h
    · rw [Option.mem_toList] at h
      obtain ⟨k', hk, heq⟩ := Option.map_eq_some_iff.mp h
      cases heq
      exact ⟨[], ⟨turns, rfl⟩, hk⟩
    · obtain ⟨t, ⟨rest, hrest⟩, hk⟩ := ih h
      exact ⟨j :: t, ⟨rest, by rw [← hrest]; rfl⟩, hk⟩

theorem commit?_of_act? {a : Act} (h : c.act? i = some a) (ha : ∀ u now, a ≠ .commit u now) :
    c.commit? i = none := by
  cases hk : c.commit? i with
  | none => rfl
  | some k =>
    obtain ⟨hact, -⟩ := commit?_eq_some_iff.mp hk
    rw [h] at hact
    cases hact
    exact absurd rfl (ha _ _)

theorem commit?_of_failed {u : Update} {now : Instant} (h : c.act? i = some (.commit u now))
    (hfailed : ∀ waited s, (c.service.carryOut (.commit u now)).1 ≠ some (waited, .ok s)) :
    c.commit? i = none := by
  cases hk : c.commit? i with
  | none => rfl
  | some k =>
    obtain ⟨hact, waited, hanswer⟩ := commit?_eq_some_iff.mp hk
    cases h.symm.trans hact
    exact absurd hanswer (hfailed _ _)

/-- A caller without a turn is where it was. -/
theorem course?_after_of_not_mem (h : i ∉ turns) : (c.after turns).course? i = c.course? i := by
  induction turns generalizing c with
  | nil => rfl
  | cons j turns ih =>
    rw [List.mem_cons, not_or] at h
    exact (ih h.2).trans (course?_turn_other c h.1)

/-- A fetch that is answered with a record is answered by the store. -/
theorem reply_of_fetch {r : Service β} {waited : Duration} {s : Settings}
    (h : (r.carryOut .fetch).1 = some (waited, .ok s)) :
    ∃ delay, (Backend.load r.backend).2 = .after delay (.ok s) := by
  rcases Service.reply_of_awaitFetch h with hreply | ⟨_, heq, -⟩
  · exact hreply
  · cases heq

/-- What a fetch gives is the record. -/
theorem Fetches.record?_eq (hkeeps : Backend.Keeps record?) {s : Settings}
    (h : c.Fetches turns i before (.ok s)) :
    record? (c.after before).service.backend = some s := by
  obtain ⟨waited, hanswer⟩ := h.carryOut
  obtain ⟨delay, hreply⟩ := reply_of_fetch hanswer
  exact hkeeps.loaded hreply

end Concourse
end ScopedSettings
