/-
A file along an ordinary path keeps a record as memory does.

Where the directory can be made and the names are free for files
(`Files.RawTree.Ordinary`) nothing is left that can fail, so a commit applies its
update and the path stays ordinary. A load reads then what the last commit has
written, for a record's text is read back as the record. So a store in such a
file and a store in memory with the same record (`RecordStore.Mirrors`) answer
the same at once, and go on mirroring each other.
-/
import ScopedSettings.Proofs.Store.KeptRecord

namespace ScopedSettings

open Files Files.RawTree

/-! ## Files -/

/-- Where nothing is refused a directory that is there can be flushed. -/
theorem Files.RawTree.syncDirectory_of_unrefused {t : RawTree} (h : t.refusals = .none)
    {path : String} (hdirectory : t.isDirectory path = true) : t.syncDirectory path = .ok () := by
  unfold RawTree.isDirectory at hdirectory
  unfold RawTree.syncDirectory
  rw [h]
  split at hdirectory
  · rename_i target hresolve
    rw [hresolve]
    split at hdirectory
    · rename_i d hat
      simp only [hat, Refusals.none, unlessRefused_none]
    · cases hdirectory
  · cases hdirectory

namespace FileStore

/-- Along an ordinary path a sibling that has been made takes the place of the record. -/
theorem Installs.ordinary {path : String} {id : FileId} {bytes : ByteArray} {t t₁ t₂ : RawTree}
    {answer : Except SettingsError Unit} (hs : t.Sound) (hunrefused : t.refusals = .none)
    (hfile : t.LeadsToFile path) (hasks : asksDirectory path = false)
    (hcreated : t.create (temporarySibling path) = (.ok id, t₁))
    (h : Installs path id bytes t₁ answer t₂) : answer = .ok () := by
  cases answer with
  | ok _ => rfl
  | error e =>
    obtain ⟨p, part, hwritten, ⟨hput, -⟩ | ⟨-, hflush | ⟨f, hrenamed⟩⟩⟩ := h.left hs hcreated
    · exact absurd (congrArg (Refusals.put · bytes) hunrefused) hput
    · exact absurd (congrArg Refusals.flush hunrefused) hflush
    · obtain ⟨q, hq, hnode⟩ := hfile.of_keeps hs hwritten.changes.keeps hwritten.changes.symm.keeps
      have hok := rename_of_unrefused (hwritten.changes.refusals_eq.trans hunrefused)
        hwritten.resolve_eq hwritten.node?_self hq hasks hnode
      rw [hrenamed] at hok
      cases hok

/-- Along an ordinary path bytes are written in any case, and it stays ordinary. -/
theorem Persists.ordinary {path : String} {bytes : ByteArray} {t t' : RawTree}
    {answer : Except SettingsError Unit} (h : Persists path bytes t answer t') (hs : t.Sound)
    (hpath : t.Ordinary path) : answer = .ok () ∧ t'.Ordinary path := by
  have hmade := hpath.made
  have hfile := hpath.file
  have hsibling := hpath.sibling
  have hasks := hpath.asksDirectory_eq
  -- what the steps after the first have to do with
  have hready {t₁ : RawTree} (hmade' : t.makeDirectories (parent path) = (.ok (), t₁)) :
      t₁.Sound ∧ t₁.refusals = .none ∧ t₁.LeadsToFile path ∧
        t₁.LeadsToFile (temporarySibling path) := by
    obtain ⟨hgrows, hsound⟩ := hs.made hmade'
    rw [hmade'] at hfile hsibling
    exact ⟨hsound, hgrows.refusals_eq.trans hpath.unrefused, hfile, hsibling⟩
  have hreplaced {id : FileId} {t₁ t₂ t₃ : RawTree}
      (hmade' : t.makeDirectories (parent path) = (.ok (), t₁))
      (hcreated : t₁.create (temporarySibling path) = (.ok id, t₂))
      (hinstalled : Installs path id bytes t₂ (.ok ()) t₃) :
      t₃.isDirectory (parent path) = true ∧ t₃.Ordinary path := by
    obtain ⟨hsound, hunrefused, hfile', hsibling'⟩ := hready hmade'
    cases hinstalled with
    | replaced hwritten hsynced hrenamed =>
      obtain ⟨p, part, hnew, -⟩ := hsound.written hcreated hwritten
      obtain ⟨hkeeps, hback, -⟩ := hnew.renamed hrenamed
      have hdirectory := hkeeps.isDirectory hsound (hs.isDirectory_makeDirectories hmade')
      -- the directory is there by now, so it need not be made again
      have hagain := makeDirectories_of_isDirectory hdirectory
      refine ⟨hdirectory, hkeeps.refusals_eq.trans hunrefused, hasks, ?_, ?_, ?_⟩
      · rw [hagain]
      · rw [hagain]
        exact hfile'.of_keeps hsound hkeeps hback
      · rw [hagain]
        exact hsibling'.of_keeps hsound hkeeps hback
  cases h with
  | noDirectory hfailed =>
    rw [hfailed] at hmade
    cases hmade
  | noSibling hmade' hcreated =>
    obtain ⟨-, hunrefused, -, p, hresolve, hnode⟩ := hready hmade'
    obtain ⟨f, t₂, hok⟩ := exists_create hresolve (asksDirectory_temporarySibling hasks)
      (isOpen_of_unrefused hunrefused hnode)
    rw [hcreated] at hok
    cases hok
  | withdrawn hmade' hcreated hinstalled hremoved =>
    obtain ⟨hsound, hunrefused, hfile', -⟩ := hready hmade'
    cases hinstalled.ordinary hsound hunrefused hfile' hasks hcreated
  | flushed hmade' hcreated hinstalled hflushed =>
    exact ⟨rfl, (hreplaced hmade' hcreated hinstalled).2⟩
  | unflushed hmade' hcreated hinstalled hflushed =>
    obtain ⟨hdirectory, hafter⟩ := hreplaced hmade' hcreated hinstalled
    rw [syncDirectory_of_unrefused hafter.unrefused hdirectory] at hflushed
    cases hflushed

/-- A commit along an ordinary path fails only where the record cannot be read, and what it has
written is read. -/
theorem commit_of_ordinary {path : String} {t : Tree} (hpath : t.Ordinary path) {base : Settings}
    (hbase : baseOf (recordAt path t) = .ok base) (u : Update) (now : Instant) :
    ∃ t' : Tree, commit path u now t = (.ok (u.apply base now), t') ∧ t'.Ordinary path ∧
      recordAt path t' = .ok (u.apply base now) := by
  obtain ⟨hok, hpath'⟩ := (persists path (u.apply base now) t).ordinary t.sound hpath
  have hcommit : commit path u now t =
      (.ok (u.apply base now), (persist path (u.apply base now) t).2) := by
    rw [commit_of_read hbase, hok]
    rfl
  refine ⟨_, hcommit, hpath', ?_⟩
  have hrecord := (commits hcommit).record?_eq (fit_of_unrefused hpath.unrefused)
  rw [record?_stored] at hrecord
  exact record?_eq_some_iff.mp hrecord

end FileStore

/-! ## Files and memory -/

namespace RecordStore

/-- A store in a file and one in memory that would be answered the same. -/
inductive Mirrors : RecordStore → RecordStore → Prop
  | mk {path : String} {tree tree' : Tree} {m : MemoryStore} (hpath : tree.Ordinary path)
    (hon : m.available = true) (hrecord : FileStore.recordAt path tree = m.answer) :
    Mirrors ⟨.file path, tree⟩ ⟨.memory m, tree'⟩

theorem Mirrors.load {f m : RecordStore} (h : Mirrors f m) :
    ∃ answer, (Backend.load f).2 = .now answer ∧ (Backend.load m).2 = .now answer ∧
      Mirrors (Backend.load f).1 (Backend.load m).1 := by
  obtain @⟨path, tree, tree', m, hpath, hon, hrecord⟩ := h
  have hfile : Backend.load (RecordStore.mk (.file path) tree) =
      (⟨.file path, tree⟩, .now (FileStore.recordAt path tree)) := by
    change (RecordStore.mk (.file path) (FileStore.load path tree).2,
      Reply.now (FileStore.load path tree).1) = _
    rw [FileStore.load_eq]
  rw [hfile]
  exact ⟨m.answer, congrArg Reply.now hrecord, rfl, hpath, hon, hrecord⟩

/-- What a record in memory is updated from is what one in a file is. -/
theorem baseOf_answer {m : MemoryStore} (hon : m.available = true) :
    FileStore.baseOf m.answer = .ok (m.record.getD .default) := by
  unfold MemoryStore.answer
  rw [if_pos hon]
  cases m.record <;> rfl

theorem Mirrors.commit {f m : RecordStore} (h : Mirrors f m) (u : Update) (now : Instant) :
    ∃ answer, (Backend.commit f u now).2 = .now answer ∧
      (Backend.commit m u now).2 = .now answer ∧
      Mirrors (Backend.commit f u now).1 (Backend.commit m u now).1 := by
  obtain @⟨path, tree, tree', m, hpath, hon, hrecord⟩ := h
  have hbase := baseOf_answer hon
  rw [← hrecord] at hbase
  obtain ⟨next, hcommit, hpath', hrecord'⟩ := FileStore.commit_of_ordinary hpath hbase u now
  have hfile : Backend.commit (RecordStore.mk (.file path) tree) u now =
      (⟨.file path, next⟩, .now (.ok (u.apply (m.record.getD .default) now))) := by
    change (RecordStore.mk (.file path) (FileStore.commit path u now tree).2,
      Reply.now (FileStore.commit path u now tree).1) = _
    rw [hcommit]
  have hmemory : Backend.commit (RecordStore.mk (.memory m) tree') u now =
      (⟨.memory { m with record := some (u.apply (m.record.getD .default) now) }, tree'⟩,
        .now (.ok (u.apply (m.record.getD .default) now))) := by
    change (RecordStore.mk (.memory (m.commit u now).1) tree', (m.commit u now).2) = _
    rw [MemoryStore.commit_eq, if_pos hon]
  rw [hfile, hmemory]
  refine ⟨_, rfl, rfl, hpath', hon, ?_⟩
  unfold MemoryStore.answer
  rw [if_pos hon]
  exact hrecord'

end RecordStore
end ScopedSettings
