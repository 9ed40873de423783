/-
The steps by which a record is replaced, one by one.

Until a sibling is renamed over the record no step changes what the path reads: the
directory part that is made holds no file, and what is created, written and removed stands
under another name (`FileStore.Holds`). What is renamed is what has been written to the
sibling since it was opened (`FileStore.Opens`).
-/
import ScopedSettings.Proofs.Files.Sibling
import ScopedSettings.Proofs.Store.FailedCommits

namespace ScopedSettings

open Files Files.RawTree

/-! ## Files -/

namespace Files.RawTree

variable {t t' : RawTree} {path : String} {p : Place} {f : FileId} {bytes : ByteArray}

/-- A path that finds nothing leads to no file. -/
theorem not_file_of_missing (h : t.readBytes path = .error .notFound)
    (hp : t.resolve path = .ok (.name p)) (f : FileId) : t.node? p ≠ some (.file f) := by
  intro hnode
  have hat : t.at? (.name p) = some (.file f) := hnode
  unfold RawTree.readBytes at h
  rw [hp] at h
  simp only [hat] at h
  split at h
  · cases h
  · cases hread : t.refusals.read f <;> simp [hread] at h

/-- What can be read after a change is the file that stands there then. -/
theorem Readable.of_changes (hs : t'.Sound) (hp : t.resolve path = .ok (.name p))
    (hchanges : ChangesFile t t' p)
    (hfile : ∀ f, t'.node? p = some (.file f) → t'.refusals.read f = none) : t'.Readable path := by
  intro q f hq hnode
  have hq' := hchanges.symm.keeps.resolve hs hq
  rw [hp] at hq'
  cases hq'
  exact hfile f hnode

/-- A file that has been opened holds nothing. -/
theorem Opened.written (h : Opened t t' p f) (hs : t.Sound)
    (hresolve : t.resolve path = .ok (.name p)) (hasks : asksDirectory path = false) :
    Written t t' path p f .empty where
  changes := h.changes
  sound := h.sound
  resolve_eq := h.changes.keeps.resolve hs hresolve
  asksDirectory_eq := hasks
  node?_self := h.node?_self
  content_self := h.content_self
  content_other := h.content_other
  before := h.before

/-- What an open file is given it holds. -/
theorem Written.overwrite (h : Written t t path p f .empty) (bytes : ByteArray) :
    Written t (t.overwrite f bytes) path p f bytes :=
  have hopened : Opened t t p f :=
    ⟨h.changes, h.sound, h.node?_self, h.content_self, fun _ _ => rfl, h.before⟩
  hopened.overwrite h.sound h.resolve_eq h.asksDirectory_eq bytes

end Files.RawTree

namespace FileStore

variable {path : String} {t t' : Tree} {found : Option ByteArray}

/-! ## What is read along the path -/

/-- Does a path read the given bytes, or nothing, so that no step but a rename can change
that? -/
structure Holds (path : String) (t : Tree) (found : Option ByteArray) : Prop where
  apart : t.Apart path
  /-- A file under the sibling's name is read once it has been renamed. -/
  readable : t.Readable (temporarySibling path)
  read : t.readBytes path = found.elim (.error .notFound) .ok
  /-- Where nothing is read, making the directory part does not change that. -/
  ready : found = none → t.isDirectory (parent path) = true ∨ IsPlain path

/-- What a file that has been opened under the sibling's name holds. -/
def Opens (path : String) (t : Tree) (id : FileId) (bytes : ByteArray) : Prop :=
  ∃ q, Written t t (temporarySibling path) q id bytes

theorem opens_of_node {q : Place} {id : FileId}
    (hq : t.resolve (temporarySibling path) = .ok (.name q))
    (hasks : asksDirectory (temporarySibling path) = false) (hnode : t.node? q = some (.file id)) :
    Opens path t id (t.content id) :=
  ⟨q, .refl (not_directory_of_file hnode), t.sound, hq, hasks, hnode, rfl, fun _ _ => rfl,
    .inl hnode⟩

theorem Holds.ready_of_keeps (h : Holds path t found) (hkeeps : Keeps t t') :
    found = none → t'.isDirectory (parent path) = true ∨ IsPlain path :=
  fun hnone => (h.ready hnone).imp_left (hkeeps.isDirectory t.sound)

/-- Making the directory part of the path changes nothing that is read. -/
theorem Holds.makeDirectories (h : Holds path t found) {answer : Except Failure Unit}
    (hmade : t.toRawTree.makeDirectories (parent path) = (answer, t'.toRawTree)) :
    Holds path t' found := by
  have hgrows := (t.sound.made hmade).1
  have hready := h.ready_of_keeps hgrows.keeps
  have hread := h.read
  cases found with
  | some bytes =>
    obtain ⟨p, f, hresolve, -⟩ := readBytes_eq_ok_iff.mp hread
    refine ⟨h.apart.of_grows t.sound hgrows hresolve, ?_, hgrows.readBytes t.sound hread, hready⟩
    intro q g hq hnode
    rw [hgrows.refusals_eq]
    exact h.readable q g (hgrows.resolve_sibling t.sound hresolve hq) (hgrows.file_eq hnode)
  | none =>
    rcases h.ready rfl with hdirectory | hplain
    · rw [makeDirectories_of_isDirectory hdirectory] at hmade
      obtain rfl := Tree.eq_of_toRawTree (congrArg Prod.snd hmade)
      exact h
    rcases t.sound.parent_made hplain hmade with hsame | ⟨-, hempty⟩
    · obtain rfl := Tree.eq_of_toRawTree hsame
      exact h
    have hmissing := t.sound.missing_of_made hplain hmade hread
    refine ⟨fun p q f hp _ hnode => absurd hnode (not_file_of_missing hmissing hp f),
      fun q g hq hnode => ?_, hmissing, hready⟩
    rw [hempty.node?_sibling hq] at hnode
    cases hnode

/-- A change under the sibling's name that leaves what the record's file holds is not read. -/
theorem Holds.of_changes (h : Holds path t found) {q : Place}
    (hq : t.resolve (temporarySibling path) = .ok (.name q)) (hchanges : ChangesFile t t' q)
    (hreadable : ∀ f, t'.node? q = some (.file f) → t'.refusals.read f = none)
    (hfile : ∀ p f, t.resolve path = .ok (.name p) → t.node? p = some (.file f) →
      t'.node? q ≠ some (.file f) ∧ t'.content f = t.content f) : Holds path t' found where
  apart := .of_changes hchanges t.sound t'.sound hq fun p f hp hnode => (hfile p f hp hnode).1
  readable := .of_changes t'.sound hq hchanges hreadable
  read := by
    rw [← h.read]
    exact hchanges.readBytes_of_sibling t.sound hq fun p f hp hnode => (hfile p f hp hnode).2
  ready := h.ready_of_keeps hchanges.keeps

/-- What has been written under the sibling's name is not read along the path. -/
theorem Holds.of_written (h : Holds path t found) {q : Place} {id : FileId} {bytes : ByteArray}
    (hwritten : Written t t' (temporarySibling path) q id bytes) :
    Holds path t' found ∧ Opens path t' id bytes := by
  have hopens := opens_of_node hwritten.resolve_eq hwritten.asksDirectory_eq hwritten.node?_self
  rw [hwritten.content_self] at hopens
  refine ⟨h.of_changes hwritten.resolve_before hwritten.changes ?_ ?_, hopens⟩
  · intro f hnode
    rw [hwritten.node?_self] at hnode
    cases hnode
    exact hwritten.read_eq_none t.sound h.readable
  · intro p f hp hnode
    obtain ⟨hne, hcontent⟩ := hwritten.content_record t.sound h.apart hp hnode
    rw [hwritten.node?_self]
    exact ⟨by simpa using Ne.symm hne, hcontent⟩

/-- A file that is opened under the sibling's name is empty, and not read along the path. -/
theorem Holds.create (h : Holds path t found) {id : FileId}
    (hcreated : t.toRawTree.create (temporarySibling path) = (.ok id, t'.toRawTree)) :
    Holds path t' found ∧ Opens path t' id .empty := by
  obtain ⟨q, hq, hasks, -, hopened⟩ := t.sound.opened_create hcreated
  exact h.of_written (hopened.written t.sound hq hasks)

/-- What is written to an open sibling, all of it or a part, is not read along the path. -/
theorem Holds.write (h : Holds path t found) {id : FileId} (hopens : Opens path t id .empty)
    {bytes : ByteArray} {answer : Except Failure Unit}
    (hwritten : t.toRawTree.write id bytes = (answer, t'.toRawTree)) :
    Holds path t' found ∧ ∃ part, Opens path t' id part ∧ (answer = .ok () → part = bytes) := by
  obtain ⟨q, hopened⟩ := hopens
  rcases write_cases hwritten with ⟨-, -, ht⟩ | ⟨e, part, -, rfl, -, ht⟩
  · have hall := hopened.overwrite bytes
    rw [← ht] at hall
    obtain ⟨hholds, hopens⟩ := h.of_written hall
    exact ⟨hholds, bytes, hopens, fun _ => rfl⟩
  · have hpart := hopened.overwrite part
    rw [← ht] at hpart
    obtain ⟨hholds, hopens⟩ := h.of_written hpart
    exact ⟨hholds, part, hopens, fun hok => nomatch hok⟩

/-- A sibling that is renamed over the record is read from then on. -/
theorem Holds.rename (h : Holds path t found) {id : FileId} {bytes : ByteArray}
    (hopens : Opens path t id bytes)
    (hrenamed : t.toRawTree.rename (temporarySibling path) path = (.ok (), t'.toRawTree)) :
    Holds path t' (some bytes) := by
  obtain ⟨q, hwritten⟩ := hopens
  obtain ⟨hkeeps, -⟩ := hwritten.renamed hrenamed
  have hread := hwritten.readBytes_renamed t.sound h.readable hrenamed
  -- nothing stands under the sibling's name any more
  have hgone {q' : Place} (hq' : t'.resolve (temporarySibling path) = .ok (.name q')) :
      t'.node? q' = none := by
    rw [hkeeps.resolve t.sound hwritten.resolve_eq] at hq'
    cases hq'
    obtain ⟨p, hp, -, ⟨hsame, -⟩ | ⟨-, -, -, ht⟩⟩ :=
      rename_ok hrenamed hwritten.resolve_eq hwritten.node?_self
    · exact absurd hwritten.node?_self (h.apart p q id hp hwritten.resolve_eq hsame)
    · have hne := (place_ne_of_resolve hp hwritten.resolve_eq).symm
      rw [ht, node?_putNode_other _ hne, node?_dropNode_self _ hwritten.place_lt]
  refine ⟨fun p q' f _ hq' _ => ?_, fun q' f hq' hnode => ?_, hread, by simp⟩
  · rw [hgone hq']
    simp
  · rw [hgone hq'] at hnode
    cases hnode

/-- A sibling that is removed, or is to be, was not read along the path. -/
theorem Holds.remove (h : Holds path t found) {id : FileId} {bytes : ByteArray}
    (hopens : Opens path t id bytes) {answer : Except Failure Unit}
    (hremoved : t.toRawTree.remove (temporarySibling path) = (answer, t'.toRawTree)) :
    Holds path t' found := by
  obtain ⟨q, hwritten⟩ := hopens
  rcases hwritten.removed hremoved with ⟨-, hnone, -⟩ | ⟨hsame, -⟩
  · refine h.of_changes hwritten.resolve_eq (hwritten.changes_removed hremoved).1 ?_ ?_
    · intro f hnode
      rw [hnone] at hnode
      cases hnode
    · intro p f _ _
      rw [hnone]
      exact ⟨by simp, hwritten.content_removed hremoved f⟩
  · obtain rfl := Tree.eq_of_toRawTree hsame
    exact h

/-- Directories that are made leave an open sibling. -/
theorem Opens.of_grows {id : FileId} {bytes : ByteArray} (h : Opens path t id bytes)
    (hgrows : Grows t t') : Opens path t' id bytes := by
  obtain ⟨q, hwritten⟩ := h
  have hopens := opens_of_node (hgrows.keeps.resolve hwritten.sound hwritten.resolve_eq)
    hwritten.asksDirectory_eq (hgrows.node?_eq hwritten.node?_self)
  rw [hgrows.content_eq, hwritten.content_self] at hopens
  exact hopens

/-! ## Whole commits -/

/-- What has replaced the record is read from then on, in a directory that is there. -/
theorem Holds.of_replaces {made : Tree} {answer : Except Failure Unit} {bytes : ByteArray}
    (hmade : t.makeDirectories (parent path) = (answer, made)) (h : Holds path made found)
    (hreplaces : Replaces path bytes t t') :
    Holds path t' (some bytes) ∧ t'.isDirectory (parent path) = true := by
  have hraw := Tree.toRawTree_lift hmade
  cases hreplaces with
  | @mk id t₁ t₂ t₃ _ hmade' hcreated hwritten hrenamed =>
    cases hraw.symm.trans hmade'
    obtain ⟨q, part, hfile, hall⟩ := made.sound.written hcreated hwritten
    obtain rfl : part = bytes := (hall.resolve_right (by simp)).2
    let last : Tree := ⟨t₃, hfile.sound⟩
    have hfile' : Written made last (temporarySibling path) q id part := hfile
    obtain ⟨hholds, hopens⟩ := h.of_written hfile'
    obtain ⟨hkeeps, -⟩ := hfile.renamed hrenamed
    exact ⟨hholds.rename hopens hrenamed, hkeeps.isDirectory made.sound
      (t.sound.isDirectory_makeDirectories hraw)⟩

/-- What has been withdrawn leaves what is read, once the directory has been made. -/
theorem Holds.of_withdraws {made : Tree} {bytes : ByteArray}
    (hmade : t.makeDirectories (parent path) = (.ok (), made)) (h : Holds path made found)
    (hwithdraws : Withdraws path bytes t t') :
    Holds path t' found ∧ t'.isDirectory (parent path) = true := by
  have hraw := Tree.toRawTree_lift hmade
  have hdirectory := t.sound.isDirectory_makeDirectories hraw
  cases hwithdraws with
  | unopened hmade' =>
    obtain rfl : t' = made := Tree.eq_of_toRawTree (congrArg Prod.snd (hmade'.symm.trans hraw))
    exact ⟨h, hdirectory⟩
  | @removed e id t₁ t₂ t₃ _ answer hmade' hcreated hinstalled hremoved =>
    cases hraw.symm.trans hmade'
    obtain ⟨answer, hwritten⟩ := hinstalled.exists_write
    obtain ⟨q, part, hfile, -⟩ := made.sound.written hcreated hwritten
    let last : Tree := ⟨t₃, hfile.sound⟩
    have hfile' : Written made last (temporarySibling path) q id part := hfile
    obtain ⟨hholds, hopens⟩ := h.of_written hfile'
    exact ⟨hholds.remove hopens hremoved,
      (hfile.changes_removed hremoved).1.keeps.isDirectory made.sound hdirectory⟩

/-! ## Where a record can be kept -/

/-- Can a record be kept along a path by several callers? It is there, or there is nothing,
and then the directory part is there as well or can be made without a way around; the
record's file has no second name under which it would be opened for writing, and a file
that stands there can be read. -/
structure Keepable (path : String) (t : Tree) : Prop where
  apart : t.Apart path
  readable : t.Readable (temporarySibling path)
  record : (∃ s, recordAt path t = .ok s) ∨ recordAt path t = .error .recordNotFound ∧
    (t.isDirectory (parent path) = true ∨ IsPlain path)

theorem Keepable.holds (h : Keepable path t) : Holds path t (t.readBytes path).toOption := by
  rcases h.record with ⟨s, hs⟩ | ⟨hmissing, hready⟩
  · obtain ⟨bytes, hread⟩ := readBytes_of_recordAt hs
    rw [hread]
    exact ⟨h.apart, h.readable, hread, by simp [Except.toOption]⟩
  · have hread := missing_of_recordAt hmissing
    rw [hread]
    exact ⟨h.apart, h.readable, hread, fun _ => hready⟩

end FileStore
end ScopedSettings
