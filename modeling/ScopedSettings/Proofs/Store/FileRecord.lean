/-
What a commit does to the record in a file.

Where the bytes that a commit writes have taken the record's place (`FileStore.Replaces`), the
record read is the updated one, for a record's text is read back as the record. Where they
have not (`FileStore.Withdraws`), a record that could be read is there as before, and where
there was none there is none. Where the sibling cannot do its work, the record can come to be
unreadable, but it is not lost without a trace (`FileStore.commits`): what is left of a
record's text that is cut short is no record.
-/
import ScopedSettings.Proofs.Settings.CutShort
import ScopedSettings.Proofs.Settings.RoundTrip
import ScopedSettings.Proofs.Store.Persistence
import ScopedSettings.Proofs.Store.Stored

namespace ScopedSettings.FileStore

open Files Files.RawTree

/-! ## Records -/

section

variable {path : String} {bytes : ByteArray} {t t' : RawTree}

/-- The record that can be read along a path, if there is one. -/
def record? (path : String) (t : RawTree) : Option Settings :=
  (recordAt path t).toOption

theorem record?_eq_some_iff {s : Settings} : record? path t = some s ↔ recordAt path t = .ok s := by
  unfold record?
  cases recordAt path t with
  | error e => simp [Except.toOption]
  | ok a => simp [Except.toOption]

/-- A record's text is read as the record, if the time in it can be told by a text. -/
theorem recordAt_of_readBytes {s : Settings} (hs : s.IsRegular)
    (h : t.readBytes path = .ok s.prettyText.toUTF8) : recordAt path t = .ok s := by
  have htext : t.readText path = .ok s.prettyText := by
    rw [readText_of_readBytes h, textOf_toUTF8]
  unfold recordAt
  rw [htext]
  exact s.ofText_prettyText.trans (congrArg Except.ok (Settings.spelled_eq_iff.mpr hs))

theorem recordAt_congr (h : t'.readBytes path = t.readBytes path) :
    recordAt path t' = recordAt path t := by
  unfold recordAt readText
  rw [h]

theorem recordAt_of_missing (h : t.readBytes path = .error .notFound) :
    recordAt path t = .error .recordNotFound := by
  unfold recordAt
  rw [readText_of_error h]

theorem recordAt_of_unread {f : Failure} (h : t.readBytes path = .error f) (hf : f ≠ .notFound) :
    recordAt path t = .error (unavailable .read path f) := by
  unfold recordAt
  rw [readText_of_error h]
  cases f <;> first | rfl | exact absurd rfl hf

/-- A record is read only where bytes are. -/
theorem readBytes_of_recordAt {s : Settings} (h : recordAt path t = .ok s) :
    ∃ bytes, t.readBytes path = .ok bytes := by
  cases hread : t.readBytes path with
  | ok bytes => exact ⟨bytes, rfl⟩
  | error f =>
    by_cases hf : f = .notFound
    · subst hf
      rw [recordAt_of_missing hread] at h
      cases h
    · rw [recordAt_of_unread hread hf] at h
      cases h

/-- Bytes that are no record are of a wrong form, or no text. -/
theorem recordAt_error_of_readBytes {e : SettingsError} (hread : t.readBytes path = .ok bytes)
    (h : recordAt path t = .error e) : (∃ reason, e = .serialization reason) ∨
      e = unavailable .read path .notText := by
  unfold recordAt at h
  rw [readText_of_readBytes hread] at h
  unfold textOf at h
  cases htext : String.fromUTF8? bytes with
  | none =>
    rw [htext] at h
    cases h
    exact .inr rfl
  | some text =>
    rw [htext] at h
    change Settings.ofText text = _ at h
    unfold Settings.ofText at h
    split at h <;> cases h
    exact .inl ⟨_, rfl⟩

/-- Bytes of a record's text that is cut are no record. -/
theorem recordAt_of_cut {s : Settings} {part : ByteArray} (hread : t.readBytes path = .ok part)
    (hcut : IsCut part s.prettyText.toUTF8) :
    ∃ e, recordAt path t = .error e ∧ e ≠ .recordNotFound := by
  unfold recordAt
  rw [readText_of_readBytes hread]
  rcases textOf_cut s.prettyText_ne_empty hcut with h | ⟨text, h, hprefix, hne⟩
  · rw [h]
    exact ⟨_, rfl, by simp [unavailable]⟩
  · rw [h]
    obtain ⟨reason, htext⟩ := Settings.ofText_cutShort hprefix hne
    exact ⟨_, htext, by simp⟩

/-- A record is missing only where nothing is found. -/
theorem missing_of_recordAt (h : recordAt path t = .error .recordNotFound) :
    t.readBytes path = .error .notFound := by
  cases hread : t.readBytes path with
  | ok bytes => simpa [unavailable] using recordAt_error_of_readBytes hread h
  | error f =>
    by_cases hf : f = .notFound
    · rw [hf]
    · rw [recordAt_of_unread hread hf] at h
      cases h

/-- What stands where the record of a path is kept. -/
def stored (path : String) (t : RawTree) : Stored :=
  .ofAnswer (recordAt path t)

theorem record?_stored (path : String) (t : RawTree) : (stored path t).record? = record? path t :=
  Stored.record?_ofAnswer _

theorem stored_of_recordAt {s : Settings} (h : recordAt path t = .ok s) :
    stored path t = .record s := by
  unfold stored
  rw [h]
  rfl

theorem stored_of_missing (h : recordAt path t = .error .recordNotFound) :
    stored path t = .nothing := by
  unfold stored
  rw [h]
  rfl

theorem stored_of_error {e : SettingsError} (h : recordAt path t = .error e)
    (he : e ≠ .recordNotFound) : stored path t = .unreadable := by
  unfold stored
  rw [h]
  cases e <;> first | rfl | exact absurd rfl he

/-- An update is applied to the record, or to the defaults where it is missing. -/
theorem base?_stored {base : Settings} (h : baseOf (recordAt path t) = .ok base) :
    (stored path t).base? = some base := by
  unfold baseOf at h
  split at h
  · rename_i hr
    rw [stored_of_missing hr]
    cases h
    rfl
  · rw [stored_of_recordAt h]
    rfl

/-- Where there is no record but one to update, nothing is at the path. -/
theorem recordAt_of_record?_eq_none {base : Settings} (hbase : baseOf (recordAt path t) = .ok base)
    (hrecord : record? path t = none) : recordAt path t = .error .recordNotFound := by
  unfold baseOf at hbase
  split at hbase
  · rename_i hr
    exact hr
  · rw [record?_eq_some_iff.mpr hbase] at hrecord
    cases hrecord

/-- A record that cannot be read is not one whose directory could not be flushed. -/
theorem isUnflushed_of_unread {e : SettingsError} (h : baseOf (recordAt path t) = .error e) :
    isUnflushed path e = false := by
  have hnot (f : Failure) : isUnflushed path (unavailable .read path f) = false :=
    isUnflushed_unavailable_of_ne path (by decide) f
  have hrecord : recordAt path t = .error e := by
    unfold baseOf at h
    split at h
    · cases h
    · exact h
  cases hread : t.readBytes path with
  | ok bytes =>
    rcases recordAt_error_of_readBytes hread hrecord with ⟨reason, rfl⟩ | rfl
    · rfl
    · exact hnot _
  | error f =>
    by_cases hf : f = .notFound
    · subst hf
      rw [recordAt_of_missing hread] at hrecord
      cases hrecord
      rfl
    · rw [recordAt_of_unread hread hf] at hrecord
      cases hrecord
      exact hnot f

end

/-! ## Commits -/

section

variable {path : String} {t t' : Tree} {u : Update} {now : Instant}

/-- How a commit has come to its answer: it has found no record to update, or it has
written the updated one, or tried to. -/
theorem commit_cases (path : String) (u : Update) (now : Instant) (t : Tree) :
    (∃ e, baseOf (recordAt path t) = .error e ∧ commit path u now t = (.error e, t)) ∨
      ∃ base answer, ∃ t' : Tree, baseOf (recordAt path t) = .ok base ∧
        Persists path (u.apply base now).prettyText.toUTF8 t answer t' ∧
        commit path u now t = (answer.map fun _ => u.apply base now, t') := by
  cases hbase : baseOf (recordAt path t) with
  | error e => exact .inl ⟨e, rfl, commit_of_unread hbase u now⟩
  | ok base =>
    exact .inr ⟨base, _, _, rfl, persists path (u.apply base now) t, commit_of_read hbase u now⟩

/-- Has a commit come to an answer by which it has replaced the record? -/
def Answers (path : String) (u : Update) (now : Instant) (base : Settings) :
    Except SettingsError Settings → Prop
  | .ok s => s = u.apply base now
  | .error e => isUnflushed path e = true

/-- A commit replaces the record there is, or the defaults, by the updated one, or fails by an
error that says so. -/
theorem commit_outcome {answer : Except SettingsError Settings}
    (h : commit path u now t = (answer, t')) :
    (∃ base, baseOf (recordAt path t) = .ok base ∧ Answers path u now base answer ∧
      Replaces path (u.apply base now).prettyText.toUTF8 t t') ∨
    ∃ e, answer = .error e ∧ isUnflushed path e = false ∧ (t' = t ∨
      ∃ base, baseOf (recordAt path t) = .ok base ∧
        Withdraws path (u.apply base now).prettyText.toUTF8 t t') := by
  rcases commit_cases path u now t with
    ⟨e, hbase, hunread⟩ | ⟨base, answer', t₁, hbase, hpersists, hcommit⟩
  · rw [h] at hunread
    cases hunread
    exact .inr ⟨e, rfl, isUnflushed_of_unread hbase, .inl rfl⟩
  · rw [h] at hcommit
    cases hcommit
    rcases hpersists.outcome with ⟨rfl | ⟨e, rfl, he⟩, hreplaces⟩ | ⟨⟨e, rfl, he⟩, hwithdraws⟩
    · exact .inl ⟨base, hbase, rfl, hreplaces⟩
    · exact .inl ⟨base, hbase, he, hreplaces⟩
    · exact .inr ⟨e, rfl, he, .inr ⟨base, hbase, hwithdraws⟩⟩

/-- Can a file be flushed, and the directory of the record? -/
structure Flushes (path : String) (t : RawTree) : Prop where
  file : t.refusals.flush = none
  isDirectory : t.isDirectory (parent path) = true
  flushed : t.syncDirectory (parent path) = .ok ()

theorem Flushes.of_keeps {t t' : RawTree} (h : Flushes path t) (hs : t.Sound)
    (hkeeps : Keeps t t') :
    Flushes path t' where
  file := by rw [hkeeps.refusals_eq, h.file]
  isDirectory := hkeeps.isDirectory hs h.isDirectory
  flushed := by rw [hkeeps.syncDirectory_eq hs h.isDirectory, h.flushed]

/-- Commits keep directories where they are. -/
theorem keeps_commit {answer : Except SettingsError Settings}
    (h : commit path u now t = (answer, t')) : Keeps t t' := by
  rcases commit_outcome h with ⟨base, -, -, hreplaces⟩ | ⟨e, -, -, rfl | ⟨base, -, hwithdraws⟩⟩
  · exact (hreplaces.keeps t.sound).1
  · exact .refl _
  · exact (hwithdraws.keeps t.sound).1

/-- Where a commit says that the directory could not be flushed, it cannot be. -/
theorem syncDirectory_of_commit {e : SettingsError} (h : commit path u now t = (.error e, t'))
    (he : isUnflushed path e = true) : ∃ f, t'.syncDirectory (parent path) = .error f := by
  rcases commit_cases path u now t with
    ⟨e', hbase, hunread⟩ | ⟨base, answer, t₁, -, hpersists, hcommit⟩
  · rw [h] at hunread
    cases hunread
    rw [isUnflushed_of_unread hbase] at he
    cases he
  · rw [h] at hcommit
    cases answer with
    | ok _ => cases hcommit
    | error e' =>
      cases hcommit
      exact hpersists.syncDirectory_error he

/-- A directory that can be flushed can be flushed by every commit. -/
theorem Flushes.commit {answer : Except SettingsError Settings} (hflushes : Flushes path t)
    (h : commit path u now t = (answer, t')) :
    Flushes path t' ∧ ∀ e, answer = .error e → isUnflushed path e = false := by
  have hafter := hflushes.of_keeps t.sound (keeps_commit h)
  refine ⟨hafter, ?_⟩
  rintro e rfl
  refine Bool.eq_false_iff.mpr fun he => ?_
  obtain ⟨f, hunflushed⟩ := syncDirectory_of_commit h he
  rw [hafter.flushed] at hunflushed
  cases hunflushed

/-- A commit that succeeds has flushed the directory. -/
theorem flushes_of_commit {s : Settings} (h : commit path u now t = (.ok s, t')) :
    Flushes path t' := by
  rcases commit_cases path u now t with ⟨e, -, hunread⟩ | ⟨base, answer, t₁, -, hpersists, hcommit⟩
  · rw [h] at hunread
    cases hunread
  · rw [h] at hcommit
    cases answer with
    | error e => cases hcommit
    | ok _ =>
      cases hcommit
      cases hpersists with
      | @flushed id t₁ t₂ t₃ hmade hcreated hinstalled hflushed =>
        obtain ⟨-, hsound⟩ := t.sound.made hmade
        cases hinstalled with
        | replaced hwritten hsynced hrenamed =>
          obtain ⟨p, part, hfile, -⟩ := hsound.written hcreated hwritten
          obtain ⟨hkeeps, -⟩ := hfile.renamed hrenamed
          obtain ⟨hfile', -⟩ := unlessRefused_eq_ok_iff.mp hsynced
          refine ⟨?_, hkeeps.isDirectory hsound (t.sound.isDirectory_makeDirectories hmade),
            hflushed⟩
          rw [hkeeps.refusals_eq, ← hfile.changes.refusals_eq, hfile']

theorem fit_commit {answer : Except SettingsError Settings} (hfit : Fit path t)
    (h : commit path u now t = (answer, t')) : Fit path t' := by
  rcases commit_outcome h with ⟨base, -, -, hreplaces⟩ | ⟨e, -, -, rfl | ⟨base, -, hwithdraws⟩⟩
  · exact hreplaces.fit t.sound hfit
  · exact hfit
  · exact hwithdraws.fit t.sound hfit

/-- What is known of a store whose record is in a file. -/
def conditions (path : String) (t : RawTree) : Conditions where
  replaced := isUnflushed path
  steady := t.Straight path
  fit := Fit path t
  flushes := Flushes path t

theorem Replaces.holds {base : Settings}
    (h : Replaces path (u.apply base now).prettyText.toUTF8 t t') :
    (conditions path t).Holds (u.apply base now) (stored path t') := by
  rcases h.readBytes_cases t.sound with hread | ⟨f, hread⟩
  · rw [stored_of_recordAt (recordAt_of_readBytes (Settings.isRegular_apply u base now) hread)]
    exact .record
  · rw [stored_of_error (recordAt_of_unread hread (by simp)) (by simp [unavailable])]
    refine .unreadable fun hfit => ?_
    rw [h.readBytes t.sound hfit] at hread
    cases hread

theorem Withdraws.left {base : Settings} (hbase : baseOf (recordAt path t) = .ok base)
    (h : Withdraws path (u.apply base now).prettyText.toUTF8 t t') :
    (conditions path t).Left u now (stored path t) (stored path t') := by
  unfold baseOf at hbase
  split at hbase
  · -- nothing is read before, and only along a path that turned back is anything read later
    rename_i hmissing
    rw [stored_of_missing hmissing]
    cases hrecord : recordAt path t' with
    | error e =>
      by_cases he : e = .recordNotFound
      · subst he
        rw [stored_of_missing hrecord]
        exact .same
      · rw [stored_of_error hrecord he]
        exact .obstructed
    | ok s =>
      refine .uncovered fun hpath => ?_
      obtain ⟨bytes, hread⟩ := readBytes_of_recordAt hrecord
      obtain ⟨old, hold⟩ := h.exists_readBytes t.sound hpath hread
      rw [missing_of_recordAt hmissing] at hold
      cases hold
  · rw [stored_of_recordAt hbase]
    obtain ⟨old, hold⟩ := readBytes_of_recordAt hbase
    rcases h.readBytes_cases t.sound hold with hread | ⟨hfit, part, hread, hcut | ⟨hflush, rfl⟩⟩
    · rw [stored_of_recordAt ((recordAt_congr (hread.trans hold.symm)).trans hbase)]
      exact .same
    · obtain ⟨e, hrecord, he⟩ := recordAt_of_cut hread hcut
      rw [stored_of_error hrecord he]
      exact .cut hfit
    · rw [stored_of_recordAt (recordAt_of_readBytes (Settings.isRegular_apply u base now) hread)]
      exact .written hfit fun hflushes => hflush hflushes.file

/-- What a commit leaves, by its answer. -/
theorem commits {answer : Except SettingsError Settings} (h : commit path u now t = (answer, t')) :
    (conditions path t).Commits u now (stored path t) (stored path t') answer := by
  rcases commit_outcome h with ⟨base, hbase, hanswer, hreplaces⟩ | ⟨e, rfl, he, hleft⟩
  · cases answer with
    | ok s =>
      obtain rfl : s = u.apply base now := hanswer
      exact .done (base?_stored hbase) hreplaces.holds
    | error e =>
      refine .unflushed hanswer (fun hflushes => ?_) (base?_stored hbase) hreplaces.holds
      have hnot : isUnflushed path e = false := (hflushes.commit h).2 e rfl
      rw [show isUnflushed path e = true from hanswer] at hnot
      cases hnot
  · refine .failed he ?_
    rcases hleft with rfl | ⟨base, hbase, hwithdraws⟩
    · exact .same
    · exact hwithdraws.left hbase

/-- A path that is straight stays so. -/
theorem straight_commit {answer : Except SettingsError Settings} (hpath : t.Straight path)
    (h : commit path u now t = (answer, t')) : t'.Straight path := by
  intro hback
  obtain ⟨target, htarget⟩ := hpath hback
  exact ⟨target, (keeps_commit h).resolve t.sound htarget⟩

end

/-! ## Trees that are not fit, and a directory that cannot be flushed -/

section

/-- A workspace with a record in a file that has the sibling's name too, where nothing that is
written to a file can be flushed. -/
def linkedUnflushable (bytes : ByteArray) : Tree where
  toRawTree :=
    { (RawTree.oneFile "s.json" bytes).putNode ⟨1, "s.json.tmp"⟩ (.file 0) with
      refusals := { flush := some .ioError } }
  sound := ((RawTree.sound_oneFile "s.json" bytes).putNode ⟨1, "s.json.tmp"⟩
    (n := .file 0) Nat.zero_lt_one).refusing (fun _ => rfl) (fun _ => rfl) fun _ _ => rfl

/-- A write that fails when the directory is flushed has replaced the record. -/
theorem commit_unlistable (u : Update) (now : Instant) :
    (commit "s.json" u now .unlistable).1 =
        .error (unavailable .syncDirectory "s.json" (.refused .permissionDenied)) ∧
      record? "s.json" (commit "s.json" u now .unlistable).2 = some (u.apply .default now) := by
  have hbase : baseOf (recordAt "s.json" Tree.unlistable) = .ok .default := rfl
  have hanswer : (commit "s.json" u now .unlistable).1 =
      .error (unavailable .syncDirectory "s.json" (.refused .permissionDenied)) := by
    rw [commit_of_read hbase]
    rfl
  have hfit : Fit "s.json" Tree.unlistable :=
    fit_of_access (fun _ => rfl) rfl fun _ => rfl
  have hcommit : commit "s.json" u now .unlistable =
      (.error (unavailable .syncDirectory "s.json" (.refused .permissionDenied)),
        (commit "s.json" u now .unlistable).2) := Prod.ext hanswer rfl
  refine ⟨hanswer, ?_⟩
  rw [← record?_stored]
  cases commits hcommit with
  | unflushed _ _ hbase' hafter =>
    cases (base?_stored hbase).symm.trans hbase'
    exact hafter.record?_eq hfit
  | failed he _ =>
    have hunflushed := (isUnflushed_unavailable_iff "s.json" .syncDirectory
      (.refused .permissionDenied)).mpr rfl
    exact absurd (hunflushed.symm.trans he) (by decide)

/-- The same workspace where there is room for some bytes only in a file. -/
def cramped (room : Nat) : Tree where
  toRawTree :=
    { RawTree.oneFile "s.json.tmp" .empty with
      refusals :=
        { read := fun f => if f = 0 then some .permissionDenied else none
          put := fun bytes => if bytes.size ≤ room then none else some (room, .noSpaceLeft) } }
  sound := (RawTree.sound_oneFile "s.json.tmp" .empty).refusing (fun _ => rfl) (fun _ => rfl)
    fun _ h => if_neg (Nat.ne_of_gt h)

/-- What is left of it once the sibling has been opened and removed. -/
def emptied (room : Nat) (part : ByteArray) : RawTree :=
  (((cramped room).putContent 0 .empty).overwrite 0 part).dropNode ⟨1, "s.json.tmp"⟩

theorem readBytes_linkedUnflushable (bytes : ByteArray) :
    (linkedUnflushable bytes).readBytes "s.json" = .ok bytes := rfl

theorem persist_linkedUnflushable (bytes : ByteArray) (s : Settings) :
    (persist "s.json" s (linkedUnflushable bytes)).1 =
        .error (unavailable .sync "s.json" (.refused .ioError)) ∧
      (persist "s.json" s (linkedUnflushable bytes)).2.readBytes "s.json" =
        .ok s.prettyText.toUTF8 := by
  let next := s.prettyText.toUTF8
  let t₂ := (linkedUnflushable bytes).putContent 0 .empty
  let t₃ := t₂.overwrite 0 next
  have hmade : (linkedUnflushable bytes).toRawTree.makeDirectories (parent "s.json") =
      (.ok (), (linkedUnflushable bytes).toRawTree) := rfl
  have hcreated : (linkedUnflushable bytes).toRawTree.create (temporarySibling "s.json") =
      (.ok 0, t₂) := rfl
  have hwritten : t₂.write 0 next = (.ok (), t₃) := rfl
  have hsynced : t₃.sync 0 = .error (.refused .ioError) := rfl
  have hremoved : t₃.remove (temporarySibling "s.json") =
      (.ok (), t₃.dropNode ⟨1, "s.json.tmp"⟩) := rfl
  obtain ⟨hanswer, htree⟩ := persist_eq (.withdrawn hmade hcreated
    (.unsynced hwritten hsynced) hremoved)
  have hcontent : t₃.content 0 = next :=
    RawTree.content_overwrite_empty Nat.zero_lt_one rfl next
  rw [hanswer, htree]
  exact ⟨rfl, RawTree.readBytes_eq_ok_iff.mpr ⟨⟨1, "s.json"⟩, 0, rfl, rfl, rfl, rfl, hcontent⟩⟩

/-- A write that cannot be flushed has been made to the record's own file. -/
theorem commit_linkedUnflushable (u : Update) (now : Instant) :
    let record := Settings.default.prettyText.toUTF8
    (commit "s.json" u now (linkedUnflushable record)).1 =
        .error (unavailable .sync "s.json" (.refused .ioError)) ∧
      record? "s.json" (commit "s.json" u now (linkedUnflushable record)).2 =
        some (u.apply .default now) := by
  intro record
  have hrecord := recordAt_of_readBytes Settings.isRegular_default
    (readBytes_linkedUnflushable record)
  have hbase : baseOf (recordAt "s.json" (linkedUnflushable record)) = .ok .default := by
    rw [hrecord]
    rfl
  obtain ⟨hanswer, hread⟩ := persist_linkedUnflushable record (u.apply .default now)
  rw [commit_of_read hbase, hanswer]
  exact ⟨rfl, record?_eq_some_iff.mpr
    (recordAt_of_readBytes (Settings.isRegular_apply u .default now) hread)⟩

end

end ScopedSettings.FileStore
