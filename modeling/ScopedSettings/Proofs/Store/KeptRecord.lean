/-
Stores that keep their record themselves, in memory or in a file, and what a
load and a commit do to the record there.

Both answer at once. A load gives nothing but the record, and changes nothing;
what a commit leaves is told by its answer (`Conditions.Commits`). Memory is always
as a store expects it. A file's directory may be one that cannot be flushed, and what
is written to the sibling may go to the record itself, or what is renamed may not be
readable; and nothing comes to stand at the path but by a commit where it does not turn
back through directories that are missing (`RecordStore.conditions`).
-/
import ScopedSettings.Proofs.Store.FileRecord
import ScopedSettings.Store.RecordStore

namespace ScopedSettings

/-! ## Memory -/

namespace MemoryStore

theorem commit_eq (m : MemoryStore) (u : Update) (now : Instant) :
    m.commit u now =
      if m.available then
        ({ m with record := some (u.apply (m.record.getD .default) now) },
          .now (.ok (u.apply (m.record.getD .default) now)))
      else (m, .now (.error offline)) := rfl

theorem answer_eq_ok {m : MemoryStore} {s : Settings} (h : m.answer = .ok s) :
    m.record = some s := by
  unfold answer at h
  split at h
  · split at h
    · rename_i s' hrecord
      cases h
      exact hrecord
    · cases h
  · cases h

end MemoryStore

namespace RecordStore

/-! ## Stores that keep a record -/

/-- Does the store keep its record itself? -/
def IsKept (r : RecordStore) : Prop :=
  match r.keeper with
  | .memory _ | .file _ => True
  | .scripted _ => False

/-- Does the store keep its record itself, and if in a file, in a tree that is fit for it? -/
def KeepsRecord (r : RecordStore) : Prop :=
  match r.keeper with
  | .memory _ => True
  | .scripted _ => False
  | .file path => FileStore.Fit path r.tree

/-- Is the record in memory, or in a file whose path is straight? -/
def IsStraight (r : RecordStore) : Prop :=
  match r.keeper with
  | .file path => r.tree.Straight path
  | _ => True

/-- What stands where the store keeps its record. -/
def stored (r : RecordStore) : Stored :=
  match r.keeper with
  | .memory m => .ofRecord m.record
  | .scripted _ => .nothing
  | .file path => FileStore.stored path r.tree

/-- The record that the store keeps, if there is one. -/
def record? (r : RecordStore) : Option Settings :=
  match r.keeper with
  | .memory m => m.record
  | .scripted _ => none
  | .file path => FileStore.record? path r.tree

/-- Does an error of a commit say that the record has been replaced all the same? -/
def isUnflushed (r : RecordStore) (e : SettingsError) : Bool :=
  match r.keeper with
  | .file path => FileStore.isUnflushed path e
  | _ => false

/-- What is known of the store. -/
def conditions (r : RecordStore) : Conditions :=
  match r.keeper with
  | .file path => FileStore.conditions path r.tree
  | _ => { replaced := fun _ => false, steady := True, fit := True, flushes := True }

theorem record?_stored (r : RecordStore) : r.stored.record? = r.record? := by
  obtain ⟨keeper, tree⟩ := r
  cases keeper with
  | memory m => exact Stored.record?_ofRecord m.record
  | scripted s => rfl
  | file path => exact FileStore.record?_stored path tree

theorem replaced_conditions (r : RecordStore) : r.conditions.replaced = r.isUnflushed := by
  obtain ⟨keeper, tree⟩ := r
  cases keeper <;> rfl

theorem steady_conditions (r : RecordStore) : r.conditions.steady = r.IsStraight := by
  obtain ⟨keeper, tree⟩ := r
  cases keeper <;> rfl

theorem KeepsRecord.isKept {r : RecordStore} (h : r.KeepsRecord) : r.IsKept := by
  obtain ⟨keeper, tree⟩ := r
  cases keeper with
  | memory m => trivial
  | scripted s => exact h
  | file path => trivial

theorem KeepsRecord.fit {r : RecordStore} (h : r.KeepsRecord) : r.conditions.fit := by
  obtain ⟨keeper, tree⟩ := r
  cases keeper with
  | memory m => trivial
  | scripted s => exact h.elim
  | file path => exact h

/-- An update that is refused says nothing of the record. -/
theorem isUnflushed_of_refused (r : RecordStore) {u : Update} {e : SettingsError}
    (h : u.validate = .error e) : r.isUnflushed e = false := by
  unfold Update.validate at h
  split at h
  · cases h
    unfold isUnflushed
    split <;> rfl
  · cases h

/-- A path along which a record is read is straight. -/
theorem isStraight_of_record? {r : RecordStore} {s : Settings} (h : r.record? = some s) :
    r.IsStraight := by
  obtain ⟨keeper, tree⟩ := r
  cases keeper with
  | memory m => trivial
  | scripted s => trivial
  | file path =>
    obtain ⟨bytes, hread⟩ := FileStore.readBytes_of_recordAt (FileStore.record?_eq_some_iff.mp h)
    obtain ⟨p, f, hresolve, -⟩ := Files.RawTree.readBytes_eq_ok_iff.mp hread
    intro _
    exact ⟨_, hresolve⟩

/-- A store that keeps its record after another has, without its being changed. -/
structure Follows (r r' : RecordStore) : Prop where
  isKept : r'.IsKept
  conditions : r'.conditions.Meets r.conditions
  stored_eq : r'.stored = r.stored

theorem Follows.refl {r : RecordStore} (h : r.IsKept) : Follows r r :=
  ⟨h, .refl _, rfl⟩

theorem follows_switch {r : RecordStore} (h : r.IsKept) (on : Bool) :
    Follows r (r.switch on) := by
  obtain ⟨keeper, tree⟩ := r
  cases keeper with
  | memory m => exact ⟨trivial, .refl _, rfl⟩
  | scripted s => exact h.elim
  | file path => exact Follows.refl h

/-- A load changes nothing, and is answered at once with the record if with any. -/
theorem load_spec {r : RecordStore} (h : r.IsKept) :
    Follows r (Backend.load r).1 ∧ ∃ answer, (Backend.load r).2 = .now answer ∧
      ∀ s, answer = .ok s → r.stored = .record s := by
  obtain ⟨keeper, tree⟩ := r
  cases keeper with
  | memory m =>
    refine ⟨⟨trivial, .refl _, rfl⟩, m.answer, rfl, ?_⟩
    intro s hs
    exact congrArg Stored.ofRecord (MemoryStore.answer_eq_ok hs)
  | scripted s => exact h.elim
  | file path =>
    have hload := FileStore.load_eq path tree
    have hstore : (Backend.load (RecordStore.mk (.file path) tree)).1 = ⟨.file path, tree⟩ := by
      change RecordStore.mk (.file path) (FileStore.load path tree).2 = _
      rw [hload]
    rw [hstore]
    refine ⟨Follows.refl h, FileStore.recordAt path tree, ?_, ?_⟩
    · change Reply.now (FileStore.load path tree).1 = _
      rw [hload]
    · intro s hs
      exact FileStore.stored_of_recordAt hs

/-- What a commit makes of a store that keeps its record, by its answer. -/
structure Committed (r r' : RecordStore) (u : Update) (now : Instant)
    (answer : Except SettingsError Settings) : Prop where
  isKept : r'.IsKept
  conditions : r'.conditions.Meets r.conditions
  commits : r.conditions.Commits u now r.stored r'.stored answer
  flushes (s : Settings) (h : answer = .ok s) : r'.conditions.flushes

/-- An update that is refused is not given to the store. -/
theorem committed_refused {r : RecordStore} (h : r.IsKept) {u : Update} {e : SettingsError}
    (hv : u.validate = .error e) (now : Instant) : Committed r r u now (.error e) where
  isKept := h
  conditions := .refl _
  commits := by
    refine .failed ?_ .same
    rw [replaced_conditions]
    exact r.isUnflushed_of_refused hv
  flushes := by
    rintro s ⟨⟩

/-- A commit to memory succeeds, or the record stays. -/
theorem committed_memory (m : MemoryStore) (tree : Files.Tree) (u : Update) (now : Instant) :
    ∃ answer, (m.commit u now).2 = .now answer ∧
      Committed ⟨.memory m, tree⟩ ⟨.memory (m.commit u now).1, tree⟩ u now answer := by
  rw [MemoryStore.commit_eq]
  split
  · have hbase : (Stored.ofRecord m.record).base? = some (m.record.getD .default) := by
      cases m.record <;> rfl
    exact ⟨_, rfl, trivial, .refl _, .done hbase .record, fun _ _ => trivial⟩
  · exact ⟨_, rfl, trivial, .refl _, .failed rfl .same, fun _ _ => trivial⟩

theorem committed_file {path : String} {tree tree' : Files.Tree} {u : Update} {now : Instant}
    {answer : Except SettingsError Settings}
    (h : FileStore.commit path u now tree = (answer, tree')) :
    Committed ⟨.file path, tree⟩ ⟨.file path, tree'⟩ u now answer where
  isKept := trivial
  conditions :=
    ⟨rfl, fun hpath => FileStore.straight_commit hpath h, fun hfit => FileStore.fit_commit hfit h,
      fun hflushes => (FileStore.Flushes.commit hflushes h).1⟩
  commits := FileStore.commits h
  flushes := by
    rintro s rfl
    exact FileStore.flushes_of_commit h

theorem commit_spec {r : RecordStore} (h : r.IsKept) (u : Update) (now : Instant) :
    ∃ answer, (Backend.commit r u now).2 = .now answer ∧
      Committed r (Backend.commit r u now).1 u now answer := by
  obtain ⟨keeper, tree⟩ := r
  cases keeper with
  | memory m => exact committed_memory m tree u now
  | scripted s => exact h.elim
  | file path => exact ⟨_, rfl, committed_file rfl⟩

end RecordStore
end ScopedSettings
