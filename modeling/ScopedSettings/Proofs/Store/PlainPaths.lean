/-
Failed commits leave no trace along plain paths.

The first thing a commit does with a record is to make the directory part of its path.
Along a plain path this is all that a commit which fails before the record is replaced can
leave, and it is seen by no one: a load finds what it has found before, and a commit does
what it would have done in the tree made ready for it (`FileStore.prepared`). So stores stay
alike whatever commits have failed in one of them (`RecordStore.Unfailed`).
-/
import ScopedSettings.Proofs.Files.Parents
import ScopedSettings.Proofs.Store.FailedCommits

namespace ScopedSettings

open Files Files.RawTree

/-! ## Trees made ready for a commit -/

namespace FileStore

/-- The tree after a commit's first step: with the directory part of the path made, if there
is no record and it can be made. -/
def prepared (path : String) (t : Tree) : Tree :=
  match recordAt path t, t.makeDirectories (parent path) with
  | .error .recordNotFound, (.ok (), t') => t'
  | _, _ => t

variable {path : String} {t t' : Tree}

theorem prepared_cases (path : String) (t : Tree) :
    prepared path t = t ∨ recordAt path t = .error .recordNotFound ∧
      t.toRawTree.makeDirectories (parent path) = (.ok (), (prepared path t).toRawTree) := by
  unfold prepared
  split
  · rename_i hmissing hmade
    exact .inr ⟨hmissing, Tree.toRawTree_lift hmade⟩
  · exact .inl rfl

theorem prepared_of_isDirectory (h : t.isDirectory (parent path) = true) : prepared path t = t := by
  rcases prepared_cases path t with heq | ⟨-, hmade⟩
  · exact heq
  · rw [makeDirectories_of_isDirectory h] at hmade
    exact Tree.eq_of_toRawTree (congrArg Prod.snd hmade).symm

theorem fit_prepared (hfit : Fit path t) : Fit path (prepared path t) := by
  rcases prepared_cases path t with heq | ⟨-, hmade⟩
  · rw [heq]
    exact hfit
  · exact hfit.of_grows (t.sound.made hmade).1

theorem prepared_prepared (path : String) (t : Tree) :
    prepared path (prepared path t) = prepared path t := by
  rcases prepared_cases path t with heq | ⟨-, hmade⟩
  · rw [heq, heq]
  · exact prepared_of_isDirectory (t.sound.isDirectory_makeDirectories hmade)

/-- A directory part that has been made need not be made before a record is written. -/
theorem persist_of_made (h : t.toRawTree.makeDirectories (parent path) = (.ok (), t'.toRawTree))
    (s : Settings) : persist path s t' = persist path s t := by
  have hagain : t'.makeDirectories (parent path) = (.ok (), t') :=
    Tree.lift_eq (makeDirectories_of_isDirectory (t.sound.isDirectory_makeDirectories h))
  have hmade : t.makeDirectories (parent path) = (.ok (), t') := Tree.lift_eq h
  have hfirst (t : Tree) : (FileProcedure.makeDirectories (parent path)).runOn FileAct.carryOut t =
      t.makeDirectories (parent path) :=
    Procedure.runOn_act FileAct.carryOut (.makeDirectories (parent path)) t
  unfold persist persistProcedure
  rw [Procedure.runOn_bind, Procedure.runOn_bind, hfirst, hfirst, hmade, hagain]

variable (hpath : IsPlain path)
include hpath

theorem recordAt_prepared (t : Tree) : recordAt path (prepared path t) = recordAt path t := by
  rcases prepared_cases path t with heq | ⟨hmissing, hmade⟩
  · rw [heq]
  · rw [hmissing]
    exact recordAt_of_missing (t.sound.missing_of_made hpath hmade (missing_of_recordAt hmissing))

/-- A commit does what it does in the tree made ready for it. -/
theorem commit_prepared (u : Update) (now : Instant) (t : Tree) :
    commit path u now (prepared path t) = commit path u now t := by
  rcases prepared_cases path t with heq | ⟨hmissing, hmade⟩
  · rw [heq]
  · have hbase : baseOf (recordAt path t) = .ok .default := by
      rw [hmissing]
      rfl
    have hbase' := hbase
    rw [← recordAt_prepared hpath] at hbase'
    rw [commit_of_read hbase, commit_of_read hbase', persist_of_made hmade]

/-- Where there is a record to update, making the directory part comes to the tree made ready. -/
theorem eq_prepared_of_made {base : Settings} (hbase : baseOf (recordAt path t) = .ok base)
    {answer : Except Failure Unit} {t₁ : RawTree}
    (hmade : t.toRawTree.makeDirectories (parent path) = (answer, t₁)) :
    t₁ = (prepared path t).toRawTree := by
  rcases prepared_cases path t with heq | ⟨-, hprepared⟩
  · rw [heq]
    cases hrecord : record? path t with
    | some s =>
      obtain ⟨bytes, hread⟩ := readBytes_of_recordAt (record?_eq_some_iff.mp hrecord)
      exact t.sound.eq_of_made hpath hmade hread
    | none =>
      have hmissing := recordAt_of_record?_eq_none hbase hrecord
      rcases t.sound.parent_made hpath hmade with rfl | ⟨rfl, -⟩
      · rfl
      · cases hlifted : t.makeDirectories (parent path) with
        | mk answer t₂ =>
        cases hmade.symm.trans (Tree.toRawTree_lift hlifted)
        unfold prepared at heq
        rw [hmissing, hlifted] at heq
        exact congrArg Tree.toRawTree heq
  · rw [hmade] at hprepared
    cases hprepared
    rfl

/-- A commit that fails in a tree made ready for it makes no directory, if it has not replaced the
record. -/
theorem size_commit_error {u : Update} {now : Instant} {e : SettingsError}
    (h : commit path u now (prepared path t) = (.error e, t')) (he : isUnflushed path e = false) :
    t'.directories.size = (prepared path t).directories.size := by
  rcases commit_outcome h with ⟨base, -, hunflushed, -⟩ | ⟨_, _, -, rfl | ⟨base, hbase, hwithdraws⟩⟩
  · rw [show isUnflushed path e = true from hunflushed] at he
    cases he
  · rfl
  have hmade {answer : Except Failure Unit} {t₁ : RawTree}
      (hmade : (prepared path t).toRawTree.makeDirectories (parent path) = (answer, t₁)) :
      t₁ = (prepared path t).toRawTree := by
    rw [eq_prepared_of_made hpath hbase hmade, prepared_prepared]
  cases hwithdraws with
  | unopened hmade' => rw [hmade hmade']
  | removed hmade' hcreated hinstalled hremoved =>
    obtain rfl := hmade hmade'
    obtain ⟨q, part, hfile, -⟩ := hinstalled.left (prepared path t).sound hcreated
    exact (hfile.changes_removed hremoved).1.size_eq

end FileStore

/-! ## Stores -/

namespace RecordStore

/-- The store made ready for a commit. -/
def prepared (r : RecordStore) : RecordStore :=
  match r.keeper with
  | .file path => { r with tree := FileStore.prepared path r.tree }
  | _ => r

/-- Does the store keep its record itself, and if in a file, along a plain path, in a tree that is
fit for it? -/
def KeepsPlainly (r : RecordStore) : Prop :=
  match r.keeper with
  | .memory _ => True
  | .scripted _ => False
  | .file path => IsPlain path ∧ FileStore.Fit path r.tree

/-- Is the path of a file, if there is one, without names that lead back, and without names
that are too long where nothing is found along it? -/
def Admits (r : RecordStore) : Prop :=
  match r.keeper with
  | .file path => ".." ∉ names path ∧
      (r.tree.readBytes path = .error .notFound → ∀ n ∈ names path, n.utf8ByteSize ≤ longestName)
  | _ => True

/-- Stores that answer alike for ever, though one may have had more loads and failed commits:
stores that are told apart no more once they are made ready for a commit, and files that
cannot be read at all. -/
inductive Unfailed : RecordStore → RecordStore → Prop
  | prepared {r q : RecordStore} (hr : r.KeepsPlainly) (hq : q.KeepsPlainly)
    (h : Indistinct r.prepared q.prepared) : Unfailed r q
  | unread {path : String} {tree : Tree} {e : SettingsError}
    (h : FileStore.baseOf (FileStore.recordAt path tree) = .error e) :
    Unfailed ⟨.file path, tree⟩ ⟨.file path, tree⟩

variable {r q : RecordStore}

theorem Indistinct.prepared (h : Indistinct r q) : Indistinct r.prepared q.prepared := by
  cases h with
  | memory hrecord havailable => exact .memory hrecord havailable
  | file hfit => exact .file (FileStore.fit_prepared hfit)
  | @alike path p tree tree' hfit hfit' h =>
    change Indistinct ⟨.file path, FileStore.prepared path tree⟩
      ⟨.file path, FileStore.prepared path tree'⟩
    rw [FileStore.prepared_of_isDirectory h.before.isDirectory,
      FileStore.prepared_of_isDirectory h.after.isDirectory]
    exact .alike hfit hfit' h

theorem isUnflushed_prepared (r : RecordStore) : r.prepared.isUnflushed = r.isUnflushed := by
  obtain ⟨keeper, tree⟩ := r
  cases keeper <;> rfl

namespace KeepsPlainly

theorem prepared_prepared (h : r.KeepsPlainly) : r.prepared.prepared = r.prepared := by
  obtain ⟨keeper, tree⟩ := r
  cases keeper with
  | memory m => rfl
  | scripted s => rfl
  | file path =>
    exact congrArg (RecordStore.mk (.file path)) (FileStore.prepared_prepared path tree)

theorem load (h : r.KeepsPlainly) : (Backend.load r).1.KeepsPlainly ∧
    (Backend.load r).1.prepared = (Backend.load r.prepared).1 ∧
    (Backend.load r).2 = (Backend.load r.prepared).2 := by
  obtain ⟨keeper, tree⟩ := r
  cases keeper with
  | memory m => exact ⟨trivial, rfl, rfl⟩
  | scripted s => exact h.elim
  | file path =>
    obtain ⟨hpath, hfit⟩ := h
    have hprepared : (RecordStore.mk (.file path) tree).prepared =
        ⟨.file path, FileStore.prepared path tree⟩ := rfl
    rw [hprepared, load_file, load_file, FileStore.recordAt_prepared hpath]
    exact ⟨⟨hpath, hfit⟩, rfl, rfl⟩

theorem commit (h : r.KeepsPlainly) (u : Update) (now : Instant) :
    (Backend.commit r u now).1.KeepsPlainly ∧
      Backend.commit r.prepared u now = Backend.commit r u now := by
  obtain ⟨keeper, tree⟩ := r
  cases keeper with
  | memory m =>
    refine ⟨?_, rfl⟩
    trivial
  | scripted s => exact h.elim
  | file path =>
    obtain ⟨hpath, hfit⟩ := h
    refine ⟨⟨hpath, FileStore.fit_commit hfit rfl⟩, ?_⟩
    change Backend.commit (RecordStore.mk (.file path) (FileStore.prepared path tree)) u now = _
    rw [commit_file, commit_file, FileStore.commit_prepared hpath]

/-- A commit that fails in a store made ready for it makes no directory, if it has not replaced the
record. -/
theorem size_commit_error (h : r.KeepsPlainly) {u : Update} {now : Instant} {e : SettingsError}
    (hfailed : (Backend.commit r.prepared u now).2 = .now (.error e))
    (he : r.isUnflushed e = false) :
    (Backend.commit r.prepared u now).1.tree.directories.size =
      r.prepared.tree.directories.size := by
  obtain ⟨keeper, tree⟩ := r
  cases keeper with
  | memory m => rfl
  | scripted s => exact h.elim
  | file path =>
    obtain ⟨hpath, -⟩ := h
    cases hcommit : FileStore.commit path u now (FileStore.prepared path tree) with
    | mk answer tree' =>
    change (Backend.commit (RecordStore.mk (.file path) (FileStore.prepared path tree)) u now).2 =
      _ at hfailed
    change (Backend.commit (RecordStore.mk (.file path)
      (FileStore.prepared path tree)) u now).1.tree.directories.size = _
    rw [commit_file, hcommit] at hfailed ⊢
    cases hfailed
    exact FileStore.size_commit_error hpath hcommit he

theorem disturb (h : r.KeepsPlainly) (d : Disturbance) :
    (r.disturb d).KeepsPlainly ∧ (r.disturb d).prepared = r.prepared.disturb d := by
  obtain ⟨keeper, tree⟩ := r
  cases keeper with
  | memory m => cases d <;> exact ⟨trivial, rfl⟩
  | scripted s => exact h.elim
  | file path => cases d <;> exact ⟨h, rfl⟩

end KeepsPlainly

namespace Unfailed

theorem refl (hkeeps : r.KeepsRecord) (hpath : r.Admits) : Unfailed r r := by
  have hplainly (h : r.KeepsPlainly) : Unfailed r r :=
    .prepared h h (Indistinct.refl hkeeps).prepared
  obtain ⟨keeper, tree⟩ := r
  cases keeper with
  | memory m => exact hplainly trivial
  | scripted s => exact hkeeps.elim
  | file path =>
    obtain ⟨hback, hlong⟩ := hpath
    have hplain (h : ∀ n ∈ names path, n.utf8ByteSize ≤ longestName) :
        Unfailed ⟨.file path, tree⟩ ⟨.file path, tree⟩ :=
      hplainly ⟨fun n hn => ⟨fun heq => hback (heq ▸ hn), h n hn⟩, hkeeps⟩
    cases hbase : FileStore.baseOf (FileStore.recordAt path tree) with
    | error e => exact .unread hbase
    | ok base =>
      cases hrecord : FileStore.record? path tree with
      | none =>
        exact hplain (hlong (FileStore.missing_of_recordAt
          (FileStore.recordAt_of_record?_eq_none hbase hrecord)))
      | some s =>
        obtain ⟨bytes, hread⟩ :=
          FileStore.readBytes_of_recordAt (FileStore.record?_eq_some_iff.mp hrecord)
        exact hplain (le_of_readBytes hread)

theorem load (h : Unfailed r q) :
    ∃ answer, (Backend.load r).2 = .now answer ∧ (Backend.load q).2 = .now answer ∧
      Unfailed (Backend.load r).1 (Backend.load q).1 := by
  cases h with
  | prepared hr hq h =>
    obtain ⟨answer, hanswer, hanswer', hnext⟩ := h.load
    obtain ⟨hkeeps, hprepared, hreply⟩ := hr.load
    obtain ⟨hkeeps', hprepared', hreply'⟩ := hq.load
    rw [← hprepared, ← hprepared'] at hnext
    exact ⟨answer, hreply.trans hanswer, hreply'.trans hanswer', .prepared hkeeps hkeeps' hnext⟩
  | @unread path tree e h =>
    rw [load_file]
    exact ⟨_, rfl, rfl, .unread h⟩

theorem commit (h : Unfailed r q) (u : Update) (now : Instant) :
    ∃ answer, (Backend.commit r u now).2 = .now answer ∧
      (Backend.commit q u now).2 = .now answer ∧
      Unfailed (Backend.commit r u now).1 (Backend.commit q u now).1 := by
  cases h with
  | prepared hr hq h =>
    obtain ⟨answer, hanswer, hanswer', hnext⟩ := h.commit u now
    obtain ⟨hkeeps, hprepared⟩ := hr.commit u now
    obtain ⟨hkeeps', hprepared'⟩ := hq.commit u now
    rw [hprepared] at hanswer hnext
    rw [hprepared'] at hanswer' hnext
    exact ⟨answer, hanswer, hanswer', .prepared hkeeps hkeeps' hnext.prepared⟩
  | @unread path tree e h =>
    rw [commit_file, FileStore.commit_of_unread h]
    exact ⟨_, rfl, rfl, .unread h⟩

/-- A failed commit more makes no difference, if it has not replaced the record. -/
theorem commit_left (h : Unfailed r q) {u : Update} {now : Instant} {e : SettingsError}
    (hfailed : (Backend.commit r u now).2 = .now (.error e)) (he : r.isUnflushed e = false) :
    Unfailed (Backend.commit r u now).1 q := by
  cases h with
  | prepared hr hq h =>
    obtain ⟨hkeeps, hprepared⟩ := hr.commit u now
    rw [← hprepared] at hfailed hkeeps ⊢
    have he' : r.prepared.isUnflushed e = false := by rw [isUnflushed_prepared, he]
    have hnext := (h.commit_left hfailed he' (hr.size_commit_error hfailed he)).prepared
    rw [hq.prepared_prepared] at hnext
    exact .prepared hkeeps hq hnext
  | @unread path tree e h =>
    rw [commit_file, FileStore.commit_of_unread h]
    exact .unread h

theorem disturb (h : Unfailed r q) (d : Disturbance) : Unfailed (r.disturb d) (q.disturb d) := by
  cases h with
  | prepared hr hq h =>
    obtain ⟨hkeeps, hprepared⟩ := hr.disturb d
    obtain ⟨hkeeps', hprepared'⟩ := hq.disturb d
    refine .prepared hkeeps hkeeps' ?_
    rw [hprepared, hprepared']
    exact h.disturb d
  | unread h => cases d <;> exact .unread h

end Unfailed
end RecordStore
end ScopedSettings
