/-
The record of a store is what the writes that have replaced it have made of the first one.

What writes should come to is said without applying them one by one
(`IsPatched`): each setting has the value of the last write that set it. Events
that account for a record (`Event.Accounts`) patch it so, by induction from the
front: the first write that replaces the record is put in front of those that
follow. Every committed write does, and so does one that fails when the directory
of a file is flushed.
-/
import ScopedSettings.Proofs.Service.Accounts

namespace ScopedSettings

/-- A write that has been committed: what it set, when, and the record it answered with. -/
structure Commit where
  update : Update
  now : Instant
  record : Settings

/-- What the record has been replaced by: the old one with an update, and when. -/
structure Replacement where
  update : Update
  now : Instant

namespace Event

/-- The committed write an event is, if it is one. -/
def commit? : Event → Option Commit
  | .written _ u now (.ok s) => some ⟨u, now, s⟩
  | .written _ _ _ (.error _) | .started _ _ | .ended _ | .read _ _ _ _ => none

/-- The committed writes of a chronicle, in order. -/
def commits (es : List Event) : List Commit :=
  es.filterMap commit?

/-- What an event has replaced the record by, if it is a committed write or one that has
failed with the record replaced. -/
def replacement? (replaced : SettingsError → Bool) : Event → Option Replacement
  | .written _ u now (.ok _) => some ⟨u, now⟩
  | .written _ u now (.error e) => if replaced e then some ⟨u, now⟩ else none
  | .started _ _ | .ended _ | .read _ _ _ _ => none

/-- What the writes of a chronicle have replaced the record by, in order. -/
def replacements (replaced : SettingsError → Bool) (es : List Event) : List Replacement :=
  es.filterMap (replacement? replaced)

end Event

/-- An update counts the version up by one, unless that brings it back to zero. -/
theorem Update.version_apply {u : Update} {base : Settings} {now : Instant}
    (h : (u.apply base now).version ≠ 0) :
    (u.apply base now).version.toNat = base.version.toNat + 1 := by
  have hsum : (base.version + 1).toNat = (base.version.toNat + 1) % 2 ^ 64 :=
    UInt64.toNat_add base.version 1
  have hne : (base.version + 1).toNat ≠ 0 := by
    intro hzero
    exact h (UInt64.toNat_inj.mp hzero)
  have hlt := base.version.toNat_lt
  change (base.version + 1).toNat = _
  omega

theorem Update.le_version_apply {u : Update} {base : Settings} {now : Instant}
    (h : (u.apply base now).version ≠ 0) : base.version ≤ (u.apply base now).version := by
  rw [UInt64.le_iff_toNat_le, version_apply h]
  exact Nat.le_succ _

/-! ## Patching -/

/-- The last value that a setting has been given. -/
def lastSet (f : Update → Option α) (rs : List Replacement) : Option α :=
  (rs.filterMap fun r => f r.update).getLast?

theorem lastSet_cons (f : Update → Option α) (r : Replacement) (rs : List Replacement) :
    lastSet f (r :: rs) = (lastSet f rs).or (f r.update) := by
  unfold lastSet
  cases h : f r.update with
  | none => simp [h]
  | some a =>
    rw [List.filterMap_cons, h]
    cases rs.filterMap fun r => f r.update with
    | nil => rfl
    | cons b bs => simp [List.getLast?_cons]

/-- What comes first sets what those after it leave. -/
theorem getD_lastSet_cons (f : Update → Option α) (r : Replacement) (rs : List Replacement)
    (a : α) :
    (lastSet f (r :: rs)).getD a = (lastSet f rs).getD ((f r.update).getD a) := by
  rw [lastSet_cons]
  cases lastSet f rs <;> rfl

/-- A record replaced time after time: each setting as it was set last, or as it was, the
version counted up once each time, and the stamp of the last. -/
structure IsPatched (base : Settings) (rs : List Replacement) (s : Settings) : Prop where
  maxUploadMb : s.maxUploadMb = (lastSet (·.maxUploadMb) rs).getD base.maxUploadMb
  enableDeduplication :
    s.enableDeduplication = (lastSet (·.enableDeduplication) rs).getD base.enableDeduplication
  enableJira : s.enableJira = (lastSet (·.enableJira) rs).getD base.enableJira
  enableProductGrade :
    s.enableProductGrade = (lastSet (·.enableProductGrade) rs).getD base.enableProductGrade
  enableUserProfileEditable : s.enableUserProfileEditable =
    (lastSet (·.enableUserProfileEditable) rs).getD base.enableUserProfileEditable
  timeZone : s.timeZone = ((lastSet (·.timeZone) rs).map Text.trimmed).getD base.timeZone
  version : s.version.toNat = base.version.toNat + rs.length
  updatedAt : s.updatedAt = (rs.getLast?.map (·.now.toTimestamp)).or base.updatedAt

/-- What comes before others patches the record they patch. -/
theorem IsPatched.cons {base s : Settings} {r : Replacement} {rs : List Replacement}
    (hversion : (r.update.apply base r.now).version ≠ 0)
    (h : IsPatched (r.update.apply base r.now) rs s) : IsPatched base (r :: rs) s where
  maxUploadMb := by
    rw [h.maxUploadMb, getD_lastSet_cons]
    rfl
  enableDeduplication := by
    rw [h.enableDeduplication, getD_lastSet_cons]
    rfl
  enableJira := by
    rw [h.enableJira, getD_lastSet_cons]
    rfl
  enableProductGrade := by
    rw [h.enableProductGrade, getD_lastSet_cons]
    rfl
  enableUserProfileEditable := by
    rw [h.enableUserProfileEditable, getD_lastSet_cons]
    rfl
  timeZone := by
    rw [h.timeZone, lastSet_cons]
    cases lastSet (·.timeZone) rs <;> rfl
  version := by
    rw [h.version, Update.version_apply hversion, List.length_cons]
    omega
  updatedAt := by
    rw [h.updatedAt, List.getLast?_cons]
    cases rs.getLast? <;> rfl

namespace Event

variable {c : Conditions} {before after first last : Stored} {held : WorkerId → Option Settings}
  {e : Event} {es : List Event} {r : Replacement}

/-- What replaces a record, or the defaults, counts the version up. -/
theorem version_ne_zero {u : Update} {now : Instant}
    (hcounts : before.CountsUp (.record (u.apply (before.record?.getD .default) now))) :
    (u.apply (before.record?.getD .default) now).version ≠ 0 := by
  cases before with
  | nothing | unreadable =>
    change Settings.default.version + 1 ≠ 0
    decide
  | record s =>
    refine hcounts fun hsame => ?_
    have hversion : s.version = s.version + 1 := congrArg Settings.version hsame
    simp at hversion

end Event

/-! ## Runs -/

namespace Session

open Files

/-- What happens in a run accounts for what the record of its store becomes. -/
theorem accountsFor_runs {store : RecordStore} (hkept : store.IsKept) {c : Conditions}
    (hc : store.conditions.Meets c) {config : Config} {r : Service RecordStore}
    (hr : Service.ofBackend store config = .ok r) {thread : WorkerId} {ms : List (Move Bool)}
    (hfit : (opened r thread).VersionsFit ms) :
    AccountsFor c (opened r thread) ((opened r thread).after RecordStore.switch ms)
      ((opened r thread).chronicle RecordStore.switch ms) := by
  obtain rfl := Service.eq_of_ofBackend hr
  exact accountsFor_after hkept (List.mem_singleton_self _) hc hfit

theorem not_mem_closing {β : Type} (s : Session β) (name : String) {w : WorkerId} {u : Update}
    {now : Instant} {answer : Except SettingsError Settings} :
    .written w u now answer ∉ s.closing name := by
  unfold closing
  cases s.unit? name <;> simp

/-- A write is all that happens at its move. -/
theorem events_eq_of_written {β ξ : Type} [Backend β] {s : Session β} {m : Move ξ} {w : WorkerId}
    {u : Update} {now : Instant} {answer : Except SettingsError Settings}
    (h : .written w u now answer ∈ s.events m) : s.events m = [.written w u now answer] := by
  cases m with
  | enter v | leave | register l | outside x => cases h
  | use patience o =>
    change _ ∈ s.eventsOf patience o at h
    change s.eventsOf patience o = _
    unfold eventsOf at h ⊢
    split <;> simp_all [not_mem_closing]

/-- A write that an event tells of is what its commit has made it. -/
theorem committed_of_written {s : Session RecordStore} (h : s.service.backend.IsKept)
    {m : Move Bool} {w : WorkerId} {u : Update} {now : Instant}
    {answer : Except SettingsError Settings} (hm : .written w u now answer ∈ s.events m) :
    RecordStore.Committed s.service.backend (s.afterMove RecordStore.switch m).service.backend
      u now answer := by
  cases m with
  | enter v | leave | register l | outside on => cases hm
  | use patience o =>
    change _ ∈ s.eventsOf patience o at hm
    cases o with
    | write v u' now' =>
      obtain ⟨answer', hevents, hcommitted⟩ := exists_written h v u' now' patience
      rw [hevents, List.mem_singleton] at hm
      cases hm
      exact hcommitted
    | get _ _ | fetch | start _ | succeed _ | fail _ | begin _ _ | succeedUnit _ | failUnit _
    | dropUnit _ =>
      unfold eventsOf at hm
      split at hm <;> simp_all [not_mem_closing]

/-- A service on a store in memory without a record. -/
def unwritten : Service RecordStore where
  backend := { keeper := .memory {}, tree := {} }
  fetchTimeout := Config.fetchTimeout {}
  channel := .ofCapacity (Config.eventCapacity {})
  listeners := [.invalidation]

/-- A service on a file of a tree. -/
def onFile (path : String) (tree : Tree) : Service RecordStore where
  backend := { keeper := .file path, tree }
  fetchTimeout := Config.fetchTimeout {}
  channel := .ofCapacity (Config.eventCapacity {})
  listeners := [.invalidation]

def switchedOn : Update := { enableJira := some true }

/-- What the service keeps once the one write is over is what its commit leaves. -/
theorem service_written (path : String) (tree : Tree) :
    (opened (onFile path tree) ⟨0⟩).eventsOf none (.write none switchedOn .epoch) =
        [.written ⟨0⟩ switchedOn .epoch (FileStore.commit path switchedOn .epoch tree).1] ∧
      ((perform none (.write none switchedOn .epoch)).alone
        (opened (onFile path tree) ⟨0⟩)).2.service.backend =
          ⟨.file path, (FileStore.commit path switchedOn .epoch tree).2⟩ := by
  have haccepted : switchedOn.validate = .ok () := rfl
  have hreply : (Backend.commit (opened (onFile path tree) ⟨0⟩).service.backend switchedOn
      .epoch).2 = .now (FileStore.commit path switchedOn .epoch tree).1 := rfl
  exact write_of_now haccepted hreply none none

/-- A tree in which a file is at y, but the name it would be written under first is a
directory's. -/
def blocked (bytes : ByteArray) : Tree where
  toRawTree := (RawTree.oneFile "y" bytes).addDirectory ⟨1, "y.json.tmp"⟩
  sound := (RawTree.sound_oneFile "y" bytes).addDirectory (Nat.lt_succ_self 1)

theorem recordAt_blocked (bytes : ByteArray) :
    FileStore.recordAt "x/../y" (blocked bytes) = .error .recordNotFound := by
  have hread : (blocked bytes).readBytes "x/../y" = .error .notFound := rfl
  exact FileStore.recordAt_of_missing hread

theorem readBytes_blocked (bytes : ByteArray) :
    ((blocked bytes).addDirectory ⟨1, "x"⟩).readBytes "x/../y" = .ok bytes := rfl

/-- A write makes the directory, and then fails. -/
theorem commit_blocked (bytes : ByteArray) (u : Update) (now : Instant) :
    (FileStore.commit "x/../y" u now (blocked bytes)).1 =
        .error (FileStore.unavailable .create "x/../y" .isDirectory) ∧
      (FileStore.commit "x/../y" u now (blocked bytes)).2.toRawTree =
        (blocked bytes).addDirectory ⟨1, "x"⟩ := by
  have hbase : FileStore.baseOf (FileStore.recordAt "x/../y" (blocked bytes)) = .ok .default := by
    rw [recordAt_blocked]
    rfl
  have hmade : (blocked bytes).toRawTree.makeDirectories (parent "x/../y") =
      (.ok (), (blocked bytes).addDirectory ⟨1, "x"⟩) := rfl
  have hcreated : ((blocked bytes).addDirectory ⟨1, "x"⟩).create (temporarySibling "x/../y") =
      (.error .isDirectory, (blocked bytes).addDirectory ⟨1, "x"⟩) := rfl
  obtain ⟨t', hcommit, htree⟩ :=
    FileStore.commit_of_persists u now hbase (.noSibling hmade hcreated)
  rw [hcommit]
  exact ⟨rfl, htree⟩

end Session
end ScopedSettings
