/-
What a commit to a file does, and what it leaves alone.

The directories that a commit makes are those that were missing on the way to its
path (`RawTree.MakesAlong`); all else it changes stands under the record's name or under its
sibling's (`RawTree.ChangesOnly`). A commit that succeeds, or that only fails to flush the
directory, leaves the record and no sibling (`FileStore.Replaced`); one that fails otherwise
leaves no file that was not there before (`FileStore.Withdrawn`). `FileStore.commit_effect` has
both.
-/
import Mathlib.Logic.Function.Iterate
import ScopedSettings.Proofs.Store.WholeRecords

namespace ScopedSettings

open Files Files.RawTree

namespace Files.RawTree

variable {t t' t'' : RawTree} {path : String}

/-! ## Directories on the way -/

/-- Making directories along a path: what is new is where the path leads, or the directory
part of it, or the directory part of that. -/
structure MakesAlong (path : String) (t t' : RawTree) : Prop where
  grows : Grows t t'
  resolve_eq {p : Place} (h : t'.node? p ≠ t.node? p) :
    ∃ k, t'.resolve (parent^[k] path) = .ok (.name p)

namespace MakesAlong

theorem refl (path : String) (t : RawTree) : MakesAlong path t t :=
  ⟨.refl t, fun h => absurd rfl h⟩

theorem trans (h : MakesAlong path t t') (hs : t'.Sound) (h' : MakesAlong path t' t'') :
    MakesAlong path t t'' := by
  refine ⟨h.grows.trans h'.grows, fun {p} hp => ?_⟩
  by_cases hp' : t''.node? p = t'.node? p
  · rw [hp'] at hp
    obtain ⟨k, hk⟩ := h.resolve_eq hp
    exact ⟨k, h'.grows.keeps.resolve hs hk⟩
  · exact h'.resolve_eq hp'

theorem of_parent (h : MakesAlong (parent path) t t') : MakesAlong path t t' :=
  ⟨h.grows, fun hp => (h.resolve_eq hp).imp' (· + 1) fun _ hk => hk⟩

end MakesAlong

theorem Sound.makesAlong_makeDirectory (hs : t.Sound) {answer : Except Failure Unit}
    (h : t.makeDirectory path = (answer, t')) : MakesAlong path t t' := by
  cases answer with
  | error f =>
    rw [eq_of_makeDirectory_error h]
    exact .refl path t
  | ok _ =>
    refine ⟨hs.grows_makeDirectory h, fun {p} hp => ⟨0, ?_⟩⟩
    obtain ⟨q, hresolve, hnode, -, rfl⟩ := makeDirectory_eq_ok_iff.mp h
    have hpq : p = q := by
      by_contra hne
      exact hp (t.node?_addDirectory_other hne)
    subst hpq
    exact (hs.grows_makeDirectory h).keeps.resolve hs hresolve

theorem Sound.makesAlong_makeDirectoriesFrom (hs : t.Sound) (path : String) (fuel : Nat) :
    MakesAlong path t (t.makeDirectoriesFrom path fuel).2 := by
  induction fuel generalizing t path with
  | zero => exact .refl path t
  | succ fuel ih =>
    unfold RawTree.makeDirectoriesFrom
    split
    · rename_i t₁ hmade
      exact hs.makesAlong_makeDirectory hmade
    · rename_i t₁ hmade
      obtain rfl := eq_of_makeDirectory_error hmade
      have hparent := ih hs (parent path)
      have hsound := hs.makeDirectoriesFrom (parent path) fuel
      split
      · rename_i f t₂ hmade₂
        rw [hmade₂] at hparent
        exact hparent.of_parent
      · rename_i t₂ hmade₂
        rw [hmade₂] at hparent hsound
        split
        · rename_i t₃ hmade₃
          exact hparent.of_parent.trans hsound (hsound.makesAlong_makeDirectory hmade₃)
        · rename_i f t₃ hmade₃
          obtain rfl := eq_of_makeDirectory_error hmade₃
          split <;> exact hparent.of_parent
    · rename_i f t₁ _ hmade
      obtain rfl := eq_of_makeDirectory_error hmade
      split <;> exact .refl path _

theorem Sound.makesAlong (hs : t.Sound) {answer : Except Failure Unit}
    (h : t.makeDirectories path = (answer, t')) : MakesAlong path t t' := by
  have hmade := hs.makesAlong_makeDirectoriesFrom path (path.length + 1)
  unfold RawTree.makeDirectories at h
  rw [h] at hmade
  exact hmade

/-! ## Places that are not touched -/

/-- Trees that differ only at some places, and by directories that were missing on the way to
a path: no directory is gone, and no file that stands elsewhere has changed. -/
structure ChangesOnly (path : String) (t t' : RawTree) (touched : Place → Prop) : Prop where
  keeps : Keeps t t'
  node?_cases {p : Place} (h : ¬ touched p) : t'.node? p = t.node? p ∨
    t.node? p = none ∧ ∃ d k, t.directories.size ≤ d ∧ t'.node? p = some (.directory d) ∧
      t'.resolve (parent^[k + 1] path) = .ok (.name p)
  content_eq {p : Place} {f : FileId} (h : ¬ touched p) (hp : t.node? p = some (.file f)) :
    t'.content f = t.content f

/-- Once the directory part of a path has been made, what stands at other places stays. -/
theorem MakesAlong.changesOnly (h : MakesAlong (parent path) t t') (hs : t'.Sound)
    (hkeeps : Keeps t' t'') {touched : Place → Prop}
    (hnode : ∀ p, ¬ touched p → t''.node? p = t'.node? p)
    (hcontent : ∀ p f, ¬ touched p → t'.node? p = some (.file f) → t''.content f = t'.content f) :
    ChangesOnly path t t'' touched where
  keeps := h.grows.keeps.trans hkeeps
  node?_cases {p} hp := by
    rw [hnode p hp]
    rcases h.grows.node?_cases p with hsame | ⟨hnone, d, hd, hnew⟩
    · exact .inl hsame
    · obtain ⟨k, hk⟩ := h.resolve_eq (p := p) (by simp [hnone, hnew])
      exact .inr ⟨hnone, d, k, hd, hnew, hkeeps.resolve hs hk⟩
  content_eq {p f} hp hfile := by
    rw [hcontent p f hp (h.grows.node?_eq hfile), h.grows.content_eq]

end Files.RawTree

namespace FileStore

/-! ## What a commit is to do -/

/-- Has the file under the sibling's name, if there is one, no other name? The sibling is
looked for as a commit does, when the directory part of the path has been made. -/
def SiblingAlone (path : String) (t : RawTree) : Prop :=
  ∀ p q f, (t.makeDirectories (parent path)).2.resolve (temporarySibling path) = .ok (.name q) →
    t.node? q = some (.file f) → t.node? p = some (.file f) → p = q

/-- Can the file under the sibling's name be read, if there is one? -/
def SiblingReadable (path : String) (t : RawTree) : Prop :=
  (t.makeDirectories (parent path)).2.Readable (temporarySibling path)

/-- Is a file of the given bytes at a path? -/
def HasFile (path : String) (bytes : ByteArray) (t : RawTree) : Prop :=
  ∃ p f, t.resolve path = .ok (.name p) ∧ t.node? p = some (.file f) ∧
    asksDirectory path = false ∧ t.content f = bytes

/-- What a commit that succeeds does: the record is the one updated, whole, and nothing else
is changed but by directories that the path leads through. It is read then, unless the file
that it was written to was there before and could not be. -/
structure Replaced (path : String) (u : Update) (now : Instant) (t : Tree) (next : Settings)
    (t' : Tree) : Prop where
  base : ∃ base, ((load path t).1 = .ok base ∨
      (load path t).1 = .error .recordNotFound ∧ base = .default) ∧ next = u.apply base now
  hasFile : HasFile path next.prettyText.toUTF8 t'
  load_eq (h : SiblingReadable path t) :
    t'.readBytes path = .ok next.prettyText.toUTF8 ∧ (load path t').1 = .ok next
  no_sibling : ∃ q, t'.resolve (temporarySibling path) = .ok (.name q) ∧ t'.node? q = none
  isDirectory : t'.isDirectory (parent path) = true
  frame : ChangesOnly path t t' fun p => t'.resolve path = .ok (.name p) ∨
    t'.resolve (temporarySibling path) = .ok (.name p)

/-- What a commit that fails does: nothing that a load would see, if the directory part of
the path is there or plainly made; no file is new or another than before, and none is gone
but one under the sibling's name. Where that cannot be taken away it can have changed. -/
structure Withdrawn (path : String) (t t' : Tree) : Prop where
  load_eq : ((load path t).1 = .error .recordNotFound →
    t.isDirectory (parent path) = true ∨ IsPlain path) → (load path t').1 = (load path t).1
  files_eq {p : Place} {f : FileId} (h : t'.node? p = some (.file f)) :
    t.node? p = some (.file f) ∧ (t'.content f = t.content f ∨
      t'.resolve (temporarySibling path) = .ok (.name p) ∧
        t.refusals.change p.directory ≠ none)
  frame : ChangesOnly path t t' fun p => t'.resolve (temporarySibling path) = .ok (.name p)

section

variable {path : String} {bytes : ByteArray} {t t₁ t₂ t' : RawTree} {id : FileId} {q : Place}
  {answer : Except Failure Unit}

/-! ## Files beside the sibling -/

/-- A sibling with one name only is not the record's file. -/
theorem SiblingAlone.apart (h : SiblingAlone path t) (hs : t.Sound)
    (hmade : t.makeDirectories (parent path) = (answer, t₁)) : t₁.Apart path := by
  have hgrows := (hs.made hmade).1
  intro p q f hp hq hnode hsame
  refine place_ne_of_resolve hp hq (h p q f ?_ (hgrows.file_eq hsame) (hgrows.file_eq hnode))
  rw [hmade]
  exact hq

/-- What stands elsewhere is another file than the one that is opened. -/
theorem SiblingAlone.ne_of_written (h : SiblingAlone path t) (hs : t.Sound)
    (hmade : t.makeDirectories (parent path) = (answer, t₁))
    (hwritten : Written t₁ t₂ (temporarySibling path) q id bytes) {p : Place} (hne : p ≠ q)
    {f : FileId} (hp : t₁.node? p = some (.file f)) : f ≠ id := by
  obtain ⟨hgrows, hsound⟩ := hs.made hmade
  rintro rfl
  rcases hwritten.before with hold | ⟨-, hnew, -⟩
  · refine hne (h p q f ?_ (hgrows.file_eq hold) (hgrows.file_eq hp))
    rw [hmade]
    exact hwritten.resolve_before
  · exact Nat.not_lt.mpr hnew (hsound.file_lt hp)

/-- It is not written to. -/
theorem SiblingAlone.content_eq (h : SiblingAlone path t) (hs : t.Sound)
    (hmade : t.makeDirectories (parent path) = (answer, t₁))
    (hwritten : Written t₁ t₂ (temporarySibling path) q id bytes) {p : Place} (hne : p ≠ q)
    {f : FileId} (hp : t₁.node? p = some (.file f)) : t₂.content f = t₁.content f :=
  hwritten.content_other (h.ne_of_written hs hmade hwritten hne hp)
    ((hs.made hmade).2.file_lt hp)

/-- Making the directory part of the path does not change what is read, if it is there or
plainly made where nothing is. -/
theorem readBytes_made (hs : t.Sound) (hmade : t.makeDirectories (parent path) = (answer, t₁))
    (hread : (∃ old, t.readBytes path = .ok old) ∨ t.readBytes path = .error .notFound ∧
      (t.isDirectory (parent path) = true ∨ IsPlain path)) :
    t₁.readBytes path = t.readBytes path := by
  rcases hread with ⟨old, hread⟩ | ⟨hmissing, hdirectory | hplain⟩
  · rw [hread]
    exact (hs.made hmade).1.readBytes hs hread
  · rw [makeDirectories_of_isDirectory hdirectory] at hmade
    cases hmade
    rfl
  · rw [hmissing]
    exact hs.missing_of_made hplain hmade hmissing

/-! ## The ways a commit can go -/

namespace Replaces

variable (h : Replaces path bytes t t') (hs : t.Sound)
include h hs

theorem hasFile : HasFile path bytes t' := by
  cases h with
  | mk hmade hcreated hwritten hrenamed =>
    have hsound := (hs.made hmade).2
    obtain ⟨q, part, hfile, hall⟩ := hsound.written hcreated hwritten
    obtain ⟨-, -, -, p, hp⟩ := hfile.renamed hrenamed
    rw [← (hall.resolve_right (by simp)).2]
    exact ⟨p, _, hp⟩

theorem readBytes_of_readable (hreadable : SiblingReadable path t) :
    t'.readBytes path = .ok bytes := by
  cases h with
  | mk hmade hcreated hwritten hrenamed =>
    have hsound := (hs.made hmade).2
    obtain ⟨q, part, hfile, hall⟩ := hsound.written hcreated hwritten
    unfold SiblingReadable at hreadable
    rw [hmade] at hreadable
    rw [← (hall.resolve_right (by simp)).2]
    exact hfile.readBytes_renamed hsound hreadable hrenamed

/-- Once the record is written, the sibling is gone and all else is what it was. -/
theorem frame (halone : SiblingAlone path t) :
    (∃ q, t'.resolve (temporarySibling path) = .ok (.name q) ∧ t'.node? q = none) ∧
      t'.isDirectory (parent path) = true ∧
      ChangesOnly path t t' fun p => t'.resolve path = .ok (.name p) ∨
        t'.resolve (temporarySibling path) = .ok (.name p) := by
  cases h with
  | @mk id t₁ t₂ t₃ t₄ hmade hcreated hwritten hrenamed =>
  have hsound := (hs.made hmade).2
  obtain ⟨q, part, hfile, -⟩ := hsound.written hcreated hwritten
  obtain ⟨hkeeps, -⟩ := hfile.renamed hrenamed
  have hsibling := hkeeps.resolve hsound hfile.resolve_before
  obtain ⟨r, hr, -, ⟨hsame, -⟩ | ⟨-, -, -, rfl⟩⟩ :=
    rename_ok hrenamed hfile.resolve_eq hfile.node?_self
  · -- the file that is opened has not stood under the record's name before
    have hne := place_ne_of_resolve hr hfile.resolve_eq
    rw [hfile.changes.node?_eq hne] at hsame
    exact absurd rfl (halone.ne_of_written hs hmade hfile hne hsame)
  have hne := place_ne_of_resolve hr hfile.resolve_eq
  have hrecord := hkeeps.resolve hsound (hfile.changes.symm.keeps.resolve hfile.sound hr)
  refine ⟨⟨q, hsibling, ?_⟩, hkeeps.isDirectory hsound (hs.isDirectory_makeDirectories hmade),
    (hs.makesAlong hmade).changesOnly hsound hkeeps ?_ ?_⟩
  · rw [node?_putNode_other _ hne.symm, node?_dropNode_self _ hfile.place_lt]
  · intro p hp
    obtain ⟨hpr, hpq⟩ := not_or.mp hp
    have hr' : p ≠ r := by
      rintro rfl
      exact hpr hrecord
    have hq' : p ≠ q := by
      rintro rfl
      exact hpq hsibling
    rw [node?_putNode_other _ hr', node?_dropNode_other _ hq', hfile.changes.node?_eq hq']
  · intro p f hp hnode
    have hq' : p ≠ q := by
      rintro rfl
      exact hp (.inr hsibling)
    exact halone.content_eq hs hmade hfile hq' hnode

end Replaces

namespace Withdraws

variable (h : Withdraws path bytes t t') (hs : t.Sound) (halone : SiblingAlone path t)
include h hs halone

/-- Where the record is not written, no file is new, and none is another than before but the
sibling that cannot be removed. -/
theorem files_eq {p : Place} {f : FileId} (hp : t'.node? p = some (.file f)) :
    t'.content f = t.content f ∨ t'.resolve (temporarySibling path) = .ok (.name p) ∧
      t.refusals.change p.directory ≠ none := by
  cases h with
  | unopened hmade => exact .inl ((hs.made hmade).1.content_eq f)
  | removed hmade hcreated hinstalled hremoved =>
    obtain ⟨hgrows, hsound⟩ := hs.made hmade
    obtain ⟨answer, hwritten⟩ := hinstalled.exists_write
    obtain ⟨q, part, hfile, -⟩ := hsound.written hcreated hwritten
    by_cases hpq : p = q
    · subst hpq
      rcases hfile.removed hremoved with ⟨-, hnone, -⟩ | ⟨rfl, -, hchange⟩
      · rw [hnone] at hp
        cases hp
      · rw [hgrows.refusals_eq] at hchange
        exact .inr ⟨hfile.resolve_eq, hchange⟩
    · rw [(hfile.changes_removed hremoved).1.node?_eq hpq] at hp
      rw [hfile.content_removed hremoved, halone.content_eq hs hmade hfile hpq hp,
        hgrows.content_eq]
      exact .inl rfl

theorem frame :
    ChangesOnly path t t' fun p => t'.resolve (temporarySibling path) = .ok (.name p) := by
  cases h with
  | unopened hmade =>
    exact (hs.makesAlong hmade).changesOnly (hs.made hmade).2 (.refl t') (fun _ _ => rfl)
      fun _ _ _ _ => rfl
  | removed hmade hcreated hinstalled hremoved =>
    obtain ⟨hgrows, hsound⟩ := hs.made hmade
    obtain ⟨answer, hwritten⟩ := hinstalled.exists_write
    obtain ⟨q, part, hfile, -⟩ := hsound.written hcreated hwritten
    have hchanges := (hfile.changes_removed hremoved).1
    have hne {p : Place} (hp : t'.resolve (temporarySibling path) ≠ .ok (.name p)) : p ≠ q := by
      rintro rfl
      exact hp (hchanges.keeps.resolve hsound hfile.resolve_before)
    refine (hs.makesAlong hmade).changesOnly hsound hchanges.keeps ?_ ?_
    · exact fun p hp => hchanges.node?_eq (hne hp)
    · intro p g hp hnode
      rw [hfile.content_removed hremoved, halone.content_eq hs hmade hfile (hne hp) hnode]

/-- What is read is read as before. -/
theorem readBytes_eq
    (hread : (∃ old, t.readBytes path = .ok old) ∨ t.readBytes path = .error .notFound ∧
      (t.isDirectory (parent path) = true ∨ IsPlain path)) :
    t'.readBytes path = t.readBytes path := by
  cases h with
  | unopened hmade => exact readBytes_made hs hmade hread
  | removed hmade hcreated hinstalled hremoved =>
    have hsound := (hs.made hmade).2
    obtain ⟨answer, hwritten⟩ := hinstalled.exists_write
    obtain ⟨q, part, hfile, -⟩ := hsound.written hcreated hwritten
    exact (hfile.readBytes_removed hsound (halone.apart hs hmade) hremoved).trans
      (readBytes_made hs hmade hread)

end Withdraws

/-! ## Siblings afterwards -/

/-- Once the record has been replaced there is no sibling. -/
theorem SiblingAlone.of_replaces (h : SiblingAlone path t) (hs : t.Sound)
    (hreplaces : Replaces path bytes t t') : SiblingAlone path t' := by
  obtain ⟨⟨q, hq, hnone⟩, hdirectory, -⟩ := hreplaces.frame hs h
  intro p q' f hq' hnode
  rw [makeDirectories_of_isDirectory hdirectory] at hq'
  cases hq.symm.trans hq'
  rw [hnone] at hnode
  cases hnode

/-- One that has not been removed has no other name than before. -/
theorem SiblingAlone.of_withdraws (h : SiblingAlone path t) (hs : t.Sound)
    (hwithdraws : Withdraws path bytes t t') (hdirectory : t'.isDirectory (parent path) = true) :
    SiblingAlone path t' := by
  intro p q f hq hnode hnode'
  rw [makeDirectories_of_isDirectory hdirectory] at hq
  refine h p q f ?_ (hwithdraws.file_eq hs hnode) (hwithdraws.file_eq hs hnode')
  cases hwithdraws with
  | unopened hmade =>
    rw [hmade]
    exact hq
  | removed hmade hcreated hinstalled hremoved =>
    have hsound := (hs.made hmade).2
    obtain ⟨answer, hwritten⟩ := hinstalled.exists_write
    obtain ⟨q', part, hfile, -⟩ := hsound.written hcreated hwritten
    obtain ⟨hchanges, hsound'⟩ := hfile.changes_removed hremoved
    rw [hmade]
    exact hchanges.symm.keeps.resolve hsound' hq

end

/-! ## The effect and the frame of a commit -/

section

variable {path : String} {bytes : ByteArray} {t t' : Tree} {u : Update} {now : Instant}

theorem load_fst (path : String) (t : Tree) : (load path t).1 = recordAt path t := by
  rw [load_eq]

theorem exists_base_of_baseOf {base : Settings} (h : baseOf (recordAt path t) = .ok base) :
    (load path t).1 = .ok base ∨
      (load path t).1 = .error .recordNotFound ∧ base = .default := by
  rw [load_fst]
  unfold baseOf at h
  split at h
  · rename_i hmissing
    cases h
    exact .inr ⟨hmissing, rfl⟩
  · exact .inl h

theorem Withdrawn.refl (path : String) (t : Tree) : Withdrawn path t t where
  load_eq _ := rfl
  files_eq hp := ⟨hp, .inl rfl⟩
  frame := ⟨.refl t.toRawTree, fun _ => .inl rfl, fun _ _ => rfl⟩

theorem Replaces.replaced {base : Settings} (halone : SiblingAlone path t)
    (hbase : baseOf (recordAt path t) = .ok base)
    (h : Replaces path (u.apply base now).prettyText.toUTF8 t t') :
    Replaced path u now t (u.apply base now) t' := by
  obtain ⟨hsibling, hdirectory, hframe⟩ := h.frame t.sound halone
  refine ⟨⟨base, exists_base_of_baseOf hbase, rfl⟩, h.hasFile t.sound, fun hreadable => ?_,
    hsibling, hdirectory, hframe⟩
  have hread := h.readBytes_of_readable t.sound hreadable
  rw [load_fst]
  exact ⟨hread, recordAt_of_readBytes (Settings.isRegular_apply u base now) hread⟩

theorem Withdraws.withdrawn {base : Settings} (halone : SiblingAlone path t)
    (hbase : baseOf (recordAt path t) = .ok base) (h : Withdraws path bytes t t') :
    Withdrawn path t t' := by
  refine ⟨fun hready => ?_, fun hp => ⟨h.file_eq t.sound hp, h.files_eq t.sound halone hp⟩,
    h.frame t.sound halone⟩
  rw [load_fst, load_fst]
  refine recordAt_congr (h.readBytes_eq t.sound halone ?_)
  cases hrecord : record? path t with
  | some s => exact .inl (readBytes_of_recordAt (record?_eq_some_iff.mp hrecord))
  | none =>
    have hmissing := recordAt_of_record?_eq_none hbase hrecord
    exact .inr ⟨missing_of_recordAt hmissing, hready ((load_fst path t).trans hmissing)⟩

end

section

variable {path : String} {bytes : ByteArray} {t : Tree} {u : Update} {now : Instant}

end

end FileStore
end ScopedSettings
