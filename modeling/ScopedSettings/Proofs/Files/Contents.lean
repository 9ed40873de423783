/-
What the operations on files do, and what they leave.

Creating, renaming and removing change what stands at a place that is no
directory (`RawTree.ChangesFile`), so that paths go on leading where they led; a
file that is renamed keeps its number and with it what it holds. A file that has
been opened is written as far as that is not refused (`RawTree.Written`), and
removed unless that is refused; then it was there before (`Written.removed`).
-/
import ScopedSettings.Proofs.Files.Directories

namespace ScopedSettings.Files
namespace RawTree

variable {t t' t'' : RawTree} {path : String} {p : Place} {f : FileId} {bytes : ByteArray}

/-! ## Reading -/

theorem readBytes_eq_ok_iff : t.readBytes path = .ok bytes ↔
    ∃ p f, t.resolve path = .ok (.name p) ∧ t.node? p = some (.file f) ∧
      asksDirectory path = false ∧ t.refusals.read f = none ∧ t.content f = bytes := by
  constructor
  · intro h
    unfold readBytes at h
    split at h
    · cases h
    rename_i target hresolve
    split at h
    · cases h
    · obtain ⟨-, hdirectory⟩ := unlessRefused_eq_ok_iff.mp h
      cases hdirectory
    rename_i f hat
    split at h
    · cases h
    rename_i hasks
    obtain ⟨hread, hcontent⟩ := unlessRefused_eq_ok_iff.mp h
    cases target with
    | directory d => cases hat
    | name p => exact ⟨p, f, hresolve, hat, by simpa using hasks, hread, Except.ok.inj hcontent⟩
  · rintro ⟨p, f, hresolve, hnode, hasks, hread, rfl⟩
    unfold readBytes
    rw [hresolve]
    have hat : t.at? (.name p) = some (.file f) := hnode
    simp only [hat, hasks, Bool.false_eq_true, if_false, hread, unlessRefused_none]

theorem readText_of_readBytes (h : t.readBytes path = .ok bytes) :
    t.readText path = textOf bytes := by
  unfold readText
  rw [h]
  rfl

theorem readText_of_error {e : Failure} (h : t.readBytes path = .error e) :
    t.readText path = .error e := by
  unfold readText
  rw [h]
  rfl

/-- A text is read back from its bytes. -/
theorem textOf_toUTF8 (s : String) : textOf s.toUTF8 = .ok s := by
  have hvalid : s.toUTF8.IsValidUTF8 := s.isValidUTF8
  have htext : String.fromUTF8? s.toUTF8 = some s := dif_pos hvalid
  unfold textOf
  rw [htext]

/-- Are bytes others with some cut off at the end? -/
def IsCut (part bytes : ByteArray) : Prop :=
  ∃ n, n ≤ bytes.size - 1 ∧ part = bytes.extract 0 n

/-- Bytes of a text that is cut are no text, or one that is cut. -/
theorem textOf_cut {s : String} (hs : s ≠ "") {part : ByteArray} (h : IsCut part s.toUTF8) :
    textOf part = .error .notText ∨
      ∃ text, textOf part = .ok text ∧ text.toList <+: s.toList ∧ text ≠ s := by
  obtain ⟨n, hn, rfl⟩ := h
  have hsize : s.toUTF8.size ≠ 0 := fun hzero => hs (String.utf8ByteSize_eq_zero_iff.mp hzero)
  unfold textOf
  cases htext : String.fromUTF8? (s.toUTF8.extract 0 n) with
  | none => exact .inl rfl
  | some text =>
    have hbytes : text.toByteArray = s.toUTF8.extract 0 n := by
      unfold String.fromUTF8? at htext
      split at htext
      · cases htext
        rfl
      · cases htext
    have hrest : text.toByteArray ++ s.toUTF8.extract n s.toUTF8.size = s.toByteArray := by
      rw [hbytes, ← ByteArray.extract_eq_extract_append_extract n (Nat.zero_le _) (by omega)]
      exact ByteArray.extract_zero_size
    refine .inr ⟨text, rfl, ?_, ?_⟩
    · refine List.isPrefix_of_utf8Encode_append_eq_utf8Encode (s.toUTF8.extract n s.toUTF8.size) ?_
      rw [String.utf8Encode_toList, String.utf8Encode_toList, hrest]
    · rintro rfl
      have hsize' := congrArg ByteArray.size hbytes
      rw [ByteArray.size_extract] at hsize'
      have hself : text.toUTF8.size = text.toByteArray.size := rfl
      omega

/-- What is read after directories have been made could be read before. -/
theorem Grows.readBytes_of_straight (h : Grows t t') (hs : t.Sound) (hpath : t.Straight path)
    (hread : t'.readBytes path = .ok bytes) : t.readBytes path = .ok bytes := by
  obtain ⟨p, f, hresolve, hnode, hasks, hopen, hcontent⟩ := readBytes_eq_ok_iff.mp hread
  refine readBytes_eq_ok_iff.mpr ⟨p, f, ?_, h.file_eq hnode, hasks, ?_, ?_⟩
  · exact h.file_of_straight hs hpath hresolve hnode
  · rw [← h.refusals_eq, hopen]
  · rw [← h.content_eq, hcontent]

/-- What can be read is not lost when directories are made. -/
theorem Grows.readBytes (h : Grows t t') (hs : t.Sound) (hread : t.readBytes path = .ok bytes) :
    t'.readBytes path = .ok bytes := by
  obtain ⟨p, f, hresolve, hnode, hasks, hopen, hcontent⟩ := readBytes_eq_ok_iff.mp hread
  refine readBytes_eq_ok_iff.mpr
    ⟨p, f, h.keeps.resolve hs hresolve, h.node?_eq hnode, hasks, ?_, ?_⟩
  · rw [h.refusals_eq, hopen]
  · rw [h.content_eq, hcontent]

/-! ## One place changed -/

/-- A change to what stands at a place that is no directory, before and after. -/
structure ChangesFile (t t' : RawTree) (p : Place) : Prop where
  here_eq : t'.here = t.here
  refusals_eq : t'.refusals = t.refusals
  size_eq : t'.directories.size = t.directories.size
  parent_eq (d : DirectoryId) : (t'.directory d).parent = (t.directory d).parent
  node?_eq {q : Place} (h : q ≠ p) : t'.node? q = t.node? q
  file_before (d : DirectoryId) : t.node? p ≠ some (.directory d)
  file_after (d : DirectoryId) : t'.node? p ≠ some (.directory d)

theorem ChangesFile.refl (h : ∀ d, t.node? p ≠ some (.directory d)) : ChangesFile t t p :=
  ⟨rfl, rfl, rfl, fun _ => rfl, fun _ => rfl, h, h⟩

theorem ChangesFile.symm (h : ChangesFile t t' p) : ChangesFile t' t p where
  here_eq := h.here_eq.symm
  refusals_eq := h.refusals_eq.symm
  size_eq := h.size_eq.symm
  parent_eq d := (h.parent_eq d).symm
  node?_eq hq := (h.node?_eq hq).symm
  file_before := h.file_after
  file_after := h.file_before

theorem ChangesFile.trans (h : ChangesFile t t' p) (h' : ChangesFile t' t'' p) :
    ChangesFile t t'' p where
  here_eq := h'.here_eq.trans h.here_eq
  refusals_eq := h'.refusals_eq.trans h.refusals_eq
  size_eq := h'.size_eq.trans h.size_eq
  parent_eq d := (h'.parent_eq d).trans (h.parent_eq d)
  node?_eq hq := (h'.node?_eq hq).trans (h.node?_eq hq)
  file_before := h.file_before
  file_after := h'.file_after

theorem ChangesFile.keeps (h : ChangesFile t t' p) : Keeps t t' where
  here_eq := h.here_eq
  refusals_eq := h.refusals_eq
  size_le := Nat.le_of_eq h.size_eq.symm
  parent_eq _ := h.parent_eq _
  node?_eq {q d} hq := by
    by_cases hp : q = p
    · subst hp
      exact absurd hq (h.file_before d)
    · rw [h.node?_eq hp, hq]

theorem not_directory_of_file (h : t.node? p = some (.file f)) (d : DirectoryId) :
    t.node? p ≠ some (.directory d) := by
  rw [h]
  simp

theorem not_directory_of_none (h : t.node? p = none) (d : DirectoryId) :
    t.node? p ≠ some (.directory d) := by
  rw [h]
  simp

theorem changesFile_putNode (hp : p.directory < t.directories.size)
    (hnode : ∀ d, t.node? p ≠ some (.directory d)) (f : FileId) :
    ChangesFile t (t.putNode p (.file f)) p where
  here_eq := rfl
  refusals_eq := rfl
  size_eq := t.size_putNode p _
  parent_eq d := t.parent_putNode p _ d
  node?_eq hq := t.node?_putNode_other hq _
  file_before := hnode
  file_after := not_directory_of_file (t.node?_putNode_self hp _)

theorem changesFile_dropNode (hp : p.directory < t.directories.size)
    (hnode : ∀ d, t.node? p ≠ some (.directory d)) : ChangesFile t (t.dropNode p) p where
  here_eq := rfl
  refusals_eq := rfl
  size_eq := t.size_dropNode p
  parent_eq d := t.parent_dropNode p d
  node?_eq hq := t.node?_dropNode_other hq
  file_before := hnode
  file_after := not_directory_of_none (t.node?_dropNode_self hp)

theorem changesFile_putContent (hnode : ∀ d, t.node? p ≠ some (.directory d)) (f : FileId)
    (bytes : ByteArray) : ChangesFile t (t.putContent f bytes) p :=
  ⟨rfl, rfl, rfl, fun _ => rfl, fun _ => rfl, hnode, hnode⟩

theorem changesFile_addFile (hp : p.directory < t.directories.size) (hnode : t.node? p = none) :
    ChangesFile t (t.addFile p) p :=
  have hpush : ChangesFile t { t with contents := t.contents.push .empty } p :=
    ⟨rfl, rfl, rfl, fun _ => rfl, fun _ => rfl, not_directory_of_none hnode,
      not_directory_of_none hnode⟩
  hpush.trans (changesFile_putNode (t := { t with contents := t.contents.push .empty }) hp
    hpush.file_after _)

/-! ## What files hold -/

theorem content_putContent_other (t : RawTree) {f g : FileId} (h : g ≠ f) (bytes : ByteArray) :
    (t.putContent f bytes).content g = t.content g := by
  simp [content, putContent, Ne.symm h]

theorem content_addFile_self (t : RawTree) (p : Place) :
    (t.addFile p).content t.contents.size = .empty := by
  change ((t.contents.push .empty)[t.contents.size]?).getD .empty = _
  simp

theorem content_addFile_other (t : RawTree) (p : Place) {g : FileId} (h : g < t.contents.size) :
    (t.addFile p).content g = t.content g := by
  change ((t.contents.push .empty)[g]?).getD .empty = (t.contents[g]?).getD .empty
  rw [Array.getElem?_push, if_neg (Nat.ne_of_lt h)]

theorem content_overwrite_other (t : RawTree) {f g : FileId} (h : g ≠ f) (bytes : ByteArray) :
    (t.overwrite f bytes).content g = t.content g :=
  t.content_putContent_other h _

/-- What is written to an empty file is all that it holds. -/
theorem content_overwrite_empty (hf : f < t.contents.size) (hempty : t.content f = .empty)
    (bytes : ByteArray) : (t.overwrite f bytes).content f = bytes := by
  unfold overwrite
  rw [hempty, content_putContent_self _ hf]
  have hrest : ByteArray.empty.extract bytes.size ByteArray.empty.size = ByteArray.empty := by
    apply ByteArray.ext
    simp
  rw [hrest]
  simp

/-! ## Creating and writing -/

/-- Can a file be opened for writing at a place, a new one where there is none? -/
def IsOpen (t : RawTree) (p : Place) : Prop :=
  match t.node? p with
  | none => t.refusals.change p.directory = none
  | some (.file f) => t.refusals.write f = none
  | some (.directory _) => False

/-- A file is opened where that is open to it: one that is there loses what it held, and
otherwise one is added. -/
theorem create_eq_ok_iff : t.create path = (.ok f, t') ↔
    ∃ p, t.resolve path = .ok (.name p) ∧ asksDirectory path = false ∧ t.IsOpen p ∧
      (t.node? p = some (.file f) ∧ t' = t.putContent f .empty ∨
        t.node? p = none ∧ f = t.contents.size ∧ t' = t.addFile p) := by
  unfold create IsOpen
  cases t.resolve path with
  | error e => simp
  | ok target =>
    cases target with
    | directory d => simp
    | name p =>
      cases asksDirectory path with
      | true => simp
      | false =>
        cases hnode : t.node? p with
        | none =>
          cases hchange : t.refusals.change p.directory <;> simp [hnode, hchange, eq_comm]
        | some n =>
          cases n with
          | directory d => simp [hnode]
          | file g =>
            cases hwrite : t.refusals.write g with
            | some e => simp [hnode, hwrite]
            | none =>
              simp only [hnode, hwrite, Bool.false_eq_true, if_false, Prod.mk.injEq,
                Except.ok.injEq, Target.name.injEq, true_and, exists_eq_left',
                Option.some.injEq, Node.file.injEq, reduceCtorEq, false_and, or_false]
              constructor
              · rintro ⟨rfl, rfl⟩
                exact ⟨rfl, rfl⟩
              · rintro ⟨rfl, rfl⟩
                exact ⟨rfl, rfl⟩

/-- A file that cannot be created leaves the tree as it was. -/
theorem eq_of_create_error {e : Failure} (h : t.create path = (.error e, t')) : t' = t := by
  unfold create at h
  split at h
  · cases h
    rfl
  · cases h
    rfl
  · split at h
    · cases h
      rfl
    · split at h
      · cases h
        rfl
      all_goals
        split at h
        · cases h
          rfl
        · cases h

theorem exists_create (hresolve : t.resolve path = .ok (.name p))
    (hasks : asksDirectory path = false) (hopen : t.IsOpen p) :
    ∃ f t', t.create path = (.ok f, t') := by
  have hcases := hopen
  unfold IsOpen at hcases
  split at hcases
  · rename_i hnode
    exact ⟨_, _, create_eq_ok_iff.mpr ⟨p, hresolve, hasks, hopen, .inr ⟨hnode, rfl, rfl⟩⟩⟩
  · rename_i f hnode
    exact ⟨_, _, create_eq_ok_iff.mpr ⟨p, hresolve, hasks, hopen, .inl ⟨hnode, rfl⟩⟩⟩
  · exact hcases.elim

/-- A file that has been opened for writing at a place, where it is empty: it was there
before, or the directory is open to changes and it is new. Nothing else has changed. -/
structure Opened (t t' : RawTree) (p : Place) (f : FileId) : Prop where
  changes : ChangesFile t t' p
  sound : t'.Sound
  node?_self : t'.node? p = some (.file f)
  content_self : t'.content f = .empty
  content_other {g : FileId} (h : g ≠ f) (hg : g < t.contents.size) : t'.content g = t.content g
  before : t.node? p = some (.file f) ∨
    t.node? p = none ∧ t.contents.size ≤ f ∧ t.refusals.change p.directory = none

theorem Sound.opened_create (hs : t.Sound) (h : t.create path = (.ok f, t')) :
    ∃ p, t.resolve path = .ok (.name p) ∧ asksDirectory path = false ∧ t.IsOpen p ∧
      Opened t t' p f := by
  have hsound := hs.create path
  rw [h] at hsound
  obtain ⟨p, hresolve, hasks, hopen, ⟨hnode, rfl⟩ | ⟨hnode, rfl, rfl⟩⟩ := create_eq_ok_iff.mp h
  · exact ⟨p, hresolve, hasks, hopen, {
      changes := changesFile_putContent (not_directory_of_file hnode) f .empty
      sound := hsound
      node?_self := hnode
      content_self := t.content_putContent_self (hs.file_lt hnode) .empty
      content_other := fun hne _ => t.content_putContent_other hne .empty
      before := .inl hnode }⟩
  · have hp := hs.place_lt hresolve
    have hchange : t.refusals.change p.directory = none := by
      unfold IsOpen at hopen
      rw [hnode] at hopen
      exact hopen
    exact ⟨p, hresolve, hasks, hopen, {
      changes := changesFile_addFile hp hnode
      sound := hsound
      node?_self := node?_putNode_self _ hp _
      content_self := t.content_addFile_self p
      content_other := fun _ hg => t.content_addFile_other p hg
      before := .inr ⟨hnode, Nat.le_refl _, hchange⟩ }⟩

theorem Opened.lt (h : Opened t t' p f) : f < t'.contents.size :=
  h.sound.file_lt h.node?_self

/-- Bytes are written to a file, or some of them where that is refused. -/
theorem write_cases {answer : Except Failure Unit} (h : t.write f bytes = (answer, t')) :
    t.refusals.put bytes = none ∧ answer = .ok () ∧ t' = t.overwrite f bytes ∨
      ∃ e part, t.refusals.put bytes ≠ none ∧ answer = .error (.refused e) ∧ IsCut part bytes ∧
        t' = t.overwrite f part := by
  unfold write at h
  split at h
  · rename_i n e hput
    cases h
    refine .inr ⟨e, _, ?_, rfl, ⟨_, Nat.min_le_right n _, rfl⟩, rfl⟩
    rw [hput]
    exact Option.some_ne_none _
  · rename_i hput
    cases h
    exact .inl ⟨hput, rfl, rfl⟩

/-- A file of the given bytes, created and written at the place a path leads to; nothing
else has changed but what the file held. -/
structure Written (t t' : RawTree) (path : String) (p : Place) (f : FileId) (bytes : ByteArray) :
    Prop where
  changes : ChangesFile t t' p
  sound : t'.Sound
  resolve_eq : t'.resolve path = .ok (.name p)
  asksDirectory_eq : asksDirectory path = false
  node?_self : t'.node? p = some (.file f)
  content_self : t'.content f = bytes
  content_other {g : FileId} (h : g ≠ f) (hg : g < t.contents.size) : t'.content g = t.content g
  before : t.node? p = some (.file f) ∨
    t.node? p = none ∧ t.contents.size ≤ f ∧ t.refusals.change p.directory = none

theorem Written.place_lt (h : Written t t' path p f bytes) :
    p.directory < t'.directories.size :=
  h.sound.place_lt h.resolve_eq

theorem Written.resolve_before (h : Written t t' path p f bytes) :
    t.resolve path = .ok (.name p) :=
  h.changes.symm.keeps.resolve h.sound h.resolve_eq

theorem Opened.overwrite (h : Opened t t' p f) (hs : t.Sound)
    (hresolve : t.resolve path = .ok (.name p)) (hasks : asksDirectory path = false)
    (bytes : ByteArray) : Written t (t'.overwrite f bytes) path p f bytes := by
  have hchanges : ChangesFile t (t'.overwrite f bytes) p :=
    h.changes.trans (changesFile_putContent h.changes.file_after f _)
  exact {
    changes := hchanges
    sound := h.sound.overwrite f bytes
    resolve_eq := hchanges.keeps.resolve hs hresolve
    asksDirectory_eq := hasks
    node?_self := h.node?_self
    content_self := content_overwrite_empty h.lt h.content_self bytes
    content_other := fun hne hg => (t'.content_overwrite_other hne bytes).trans
      (h.content_other hne hg)
    before := h.before }

/-- What a file holds that has been created and written to: all bytes, if none was refused. -/
theorem Sound.written (hs : t.Sound) (hcreated : t.create path = (.ok f, t'))
    {answer : Except Failure Unit} (hwritten : t'.write f bytes = (answer, t'')) :
    ∃ p part, Written t t'' path p f part ∧ (answer = .ok () ∧ part = bytes ∨
      answer ≠ .ok () ∧ t.refusals.put bytes ≠ none ∧ IsCut part bytes) := by
  obtain ⟨p, hresolve, hasks, -, hopened⟩ := hs.opened_create hcreated
  rcases write_cases hwritten with ⟨-, rfl, rfl⟩ | ⟨e, part, hput, rfl, hcut, rfl⟩
  · exact ⟨p, bytes, hopened.overwrite hs hresolve hasks bytes, .inl ⟨rfl, rfl⟩⟩
  · rw [hopened.changes.refusals_eq] at hput
    exact ⟨p, part, hopened.overwrite hs hresolve hasks part,
      .inr ⟨by simp, hput, hcut⟩⟩

/-! ## Renaming and removing -/

/-- A renamed file stands at its new place, where there was no directory, unless it has
stood there before. -/
theorem rename_ok {source target : String} (h : t.rename source target = (.ok (), t'))
    (hsource : t.resolve source = .ok (.name p)) (hnode : t.node? p = some (.file f)) :
    ∃ q, t.resolve target = .ok (.name q) ∧ asksDirectory target = false ∧
      (t.node? q = some (.file f) ∧ t' = t ∨
        t.node? q ≠ some (.file f) ∧ t.refusals.change p.directory = none ∧
          (∀ d, t.node? q ≠ some (.directory d)) ∧ t' = (t.dropNode p).putNode q (.file f)) := by
  unfold rename at h
  rw [hsource] at h
  cases hresolve : t.resolve target with
  | error e =>
    rw [hresolve] at h
    cases h
  | ok goal =>
    rw [hresolve] at h
    cases goal with
    | directory d => cases h
    | name q =>
      simp only [hnode] at h
      split at h
      · cases h
      rename_i hasks
      split at h
      · rename_i hsame
        cases h
        exact ⟨q, rfl, by simpa using hasks, .inl ⟨hsame, rfl⟩⟩
      rename_i hother
      split at h
      · cases h
      rename_i hchange
      split at h
      · cases h
      rename_i hq
      split at h
      · cases h
      · cases h
        exact ⟨q, rfl, by simpa using hasks, .inr ⟨hother, (Option.or_eq_none_iff.mp hchange).1, hq,
          rfl⟩⟩

/-- A file that cannot be renamed stays where it is. -/
theorem eq_of_rename_error {source target : String} {e : Failure}
    (h : t.rename source target = (.error e, t')) : t' = t := by
  unfold rename at h
  split at h
  · cases h
    rfl
  · cases h
    rfl
  · split at h
    · cases h
      rfl
    · cases h
      rfl
    · split at h
      · cases h
        rfl
      split at h
      · cases h
      split at h
      · cases h
        rfl
      split at h
      · cases h
        rfl
      split at h
      · cases h
        rfl
      · cases h
  · cases h
    rfl

/-- A file can be given a name that it has. -/
theorem rename_of_same {source target : String} {q : Place}
    (hsource : t.resolve source = .ok (.name p)) (hnode : t.node? p = some (.file f))
    (htarget : t.resolve target = .ok (.name q)) (hasks : asksDirectory target = false)
    (hsame : t.node? q = some (.file f)) : t.rename source target = (.ok (), t) := by
  unfold rename
  rw [hsource, htarget]
  simp only [hnode, hasks, hsame, Bool.false_eq_true, if_false, if_true]

theorem remove_of_file (hresolve : t.resolve path = .ok (.name p))
    (hnode : t.node? p = some (.file f)) (hasks : asksDirectory path = false) :
    t.remove path = match t.refusals.change p.directory with
      | some e => (.error (.refused e), t)
      | none => (.ok (), t.dropNode p) := by
  unfold remove
  rw [hresolve]
  simp only [hnode]
  rw [hasks]
  rfl

theorem not_directory_dropNode {p q : Place} (hp : p.directory < t.directories.size)
    (hq : ∀ d, t.node? q ≠ some (.directory d)) (d : DirectoryId) :
    (t.dropNode p).node? q ≠ some (.directory d) := by
  by_cases h : q = p
  · subst h
    exact not_directory_of_none (t.node?_dropNode_self hp) d
  · rw [t.node?_dropNode_other h]
    exact hq d

/-- Directories stay where they are when a file is renamed. -/
theorem keeps_renamed {p q : Place} (hp : p.directory < t.directories.size)
    (hnode : t.node? p = some (.file f)) (hq : q.directory < t.directories.size)
    (hfile : ∀ d, t.node? q ≠ some (.directory d)) :
    Keeps t ((t.dropNode p).putNode q (.file f)) ∧
      Keeps ((t.dropNode p).putNode q (.file f)) t := by
  have hdrop : ChangesFile t (t.dropNode p) p :=
    changesFile_dropNode hp (not_directory_of_file hnode)
  have hq' : q.directory < (t.dropNode p).directories.size := by
    rw [size_dropNode]
    exact hq
  have hput : ChangesFile (t.dropNode p) ((t.dropNode p).putNode q (.file f)) q :=
    changesFile_putNode hq' (not_directory_dropNode hp hfile) f
  exact ⟨hdrop.keeps.trans hput.keeps, hput.symm.keeps.trans hdrop.symm.keeps⟩

/-- A written file that has been renamed stands under its new name with what it holds; no
directory is new or gone. -/
theorem Written.renamed {source target : String} (h : Written t t' source p f bytes)
    (hrename : t'.rename source target = (.ok (), t'')) :
    Keeps t t'' ∧ Keeps t'' t ∧ t''.Sound ∧ ∃ q, t''.resolve target = .ok (.name q) ∧
      t''.node? q = some (.file f) ∧ asksDirectory target = false ∧ t''.content f = bytes := by
  have hsound := h.sound.rename source target
  rw [hrename] at hsound
  obtain ⟨q, hresolve, hasks, ⟨hsame, rfl⟩ | ⟨-, -, hfile, rfl⟩⟩ :=
    rename_ok hrename h.resolve_eq h.node?_self
  · exact ⟨h.changes.keeps, h.changes.symm.keeps, hsound, q, hresolve, hsame, hasks,
      h.content_self⟩
  have hq := h.sound.place_lt hresolve
  obtain ⟨hkeeps, hback⟩ := keeps_renamed h.place_lt h.node?_self hq hfile
  have hnode : ((t'.dropNode p).putNode q (.file f)).node? q = some (.file f) := by
    refine node?_putNode_self _ ?_ _
    rw [size_dropNode]
    exact hq
  exact ⟨h.changes.keeps.trans hkeeps, hback.trans h.changes.symm.keeps, hsound, q,
    hkeeps.resolve h.sound hresolve, hnode, hasks, h.content_self⟩

/-- A file under the given path is one that can be read. -/
def Readable (t : RawTree) (path : String) : Prop :=
  ∀ p f, t.resolve path = .ok (.name p) → t.node? p = some (.file f) → t.refusals.read f = none

/-- A file that is new, or stood there before and could be read, can be read. -/
theorem Written.read_eq_none (h : Written t t' path p f bytes) (hs : t.Sound)
    (hread : t.Readable path) : t'.refusals.read f = none := by
  rw [h.changes.refusals_eq]
  rcases h.before with hnode | ⟨-, hnew, -⟩
  · exact hread p f h.resolve_before hnode
  · exact hs.read_new hnew

/-- What has been written is read after it has been renamed, unless that is refused. -/
theorem Written.readBytes_renamed_cases {source target : String} (h : Written t t' source p f bytes)
    (hrename : t'.rename source target = (.ok (), t'')) :
    t''.readBytes target = .ok bytes ∨ ∃ e, t''.readBytes target = .error (.refused e) := by
  obtain ⟨-, -, -, q, hresolve, hnode, hasks, hcontent⟩ := h.renamed hrename
  cases hopen : t''.refusals.read f with
  | none => exact .inl (readBytes_eq_ok_iff.mpr ⟨q, f, hresolve, hnode, hasks, hopen, hcontent⟩)
  | some e =>
    refine .inr ⟨e, ?_⟩
    unfold readBytes
    have hat : t''.at? (.name q) = some (.file f) := hnode
    simp only [hresolve, hat, hasks, Bool.false_eq_true, if_false, hopen, unlessRefused_some]

/-- What has been written is read after it has been renamed. -/
theorem Written.readBytes_renamed {source target : String} (h : Written t t' source p f bytes)
    (hs : t.Sound) (hread : t.Readable source)
    (hrename : t'.rename source target = (.ok (), t'')) : t''.readBytes target = .ok bytes := by
  obtain ⟨hkeeps, -, -, q, hresolve, hnode, hasks, hcontent⟩ := h.renamed hrename
  refine readBytes_eq_ok_iff.mpr ⟨q, f, hresolve, hnode, hasks, ?_, hcontent⟩
  have hopen := h.read_eq_none hs hread
  rwa [h.changes.refusals_eq, ← hkeeps.refusals_eq] at hopen

/-- A written file is removed, or it was there before and nothing changes. -/
theorem Written.removed (h : Written t t' path p f bytes) {answer : Except Failure Unit}
    (hremove : t'.remove path = (answer, t'')) :
    t'' = t'.dropNode p ∧ t''.node? p = none ∧ t.refusals.change p.directory = none ∨
      t'' = t' ∧ t.node? p = some (.file f) ∧ t.refusals.change p.directory ≠ none := by
  rw [remove_of_file h.resolve_eq h.node?_self h.asksDirectory_eq, h.changes.refusals_eq] at hremove
  split at hremove
  · rename_i e hchange
    cases hremove
    refine .inr ⟨rfl, h.before.resolve_right ?_, by rw [hchange]; simp⟩
    rintro ⟨-, -, hnone⟩
    rw [hchange] at hnone
    cases hnone
  · rename_i hchange
    cases hremove
    exact .inl ⟨rfl, t'.node?_dropNode_self h.place_lt, hchange⟩

theorem Written.changes_removed (h : Written t t' path p f bytes) {answer : Except Failure Unit}
    (hremove : t'.remove path = (answer, t'')) : ChangesFile t t'' p ∧ t''.Sound := by
  have hsound := h.sound.remove path
  rw [hremove] at hsound
  refine ⟨?_, hsound⟩
  rcases h.removed hremove with ⟨rfl, -⟩ | ⟨rfl, -⟩
  · exact h.changes.trans (changesFile_dropNode h.place_lt h.changes.file_after)
  · exact h.changes

/-- No file is there afterwards that was not there before. -/
theorem Written.file_removed (h : Written t t' path p f bytes) {answer : Except Failure Unit}
    (hremove : t'.remove path = (answer, t'')) {q : Place} {g : FileId}
    (hq : t''.node? q = some (.file g)) : t.node? q = some (.file g) := by
  by_cases hp : q = p
  · subst hp
    rcases h.removed hremove with ⟨-, hnone, -⟩ | ⟨rfl, hnode, -⟩
    · rw [hnone] at hq
      cases hq
    · rw [h.node?_self] at hq
      cases hq
      exact hnode
  · rwa [(h.changes_removed hremove).1.node?_eq hp] at hq

/-- What is read after a change could be read before, if no file is new where the change
was. -/
theorem ChangesFile.exists_readBytes (h : ChangesFile t t' p) (hs : t'.Sound)
    (hfiles : ∀ f, t'.node? p = some (.file f) → t.node? p = some (.file f))
    (hread : t'.readBytes path = .ok bytes) : ∃ old, t.readBytes path = .ok old := by
  obtain ⟨q, f, hresolve, hnode, hasks, hopen, -⟩ := readBytes_eq_ok_iff.mp hread
  have hnode' : t.node? q = some (.file f) := by
    by_cases hq : q = p
    · subst hq
      exact hfiles f hnode
    · rwa [h.node?_eq hq] at hnode
  rw [h.refusals_eq] at hopen
  exact ⟨t.content f, readBytes_eq_ok_iff.mpr
    ⟨q, f, h.symm.keeps.resolve hs hresolve, hnode', hasks, hopen, rfl⟩⟩

/-! ## Places for files -/

/-- Does a path lead to a name that is no directory's? -/
def LeadsToFile (t : RawTree) (path : String) : Prop :=
  ∃ p, t.resolve path = .ok (.name p) ∧ ∀ d, t.node? p ≠ some (.directory d)

theorem LeadsToFile.of_keeps (h : t.LeadsToFile path) (hs : t.Sound) (hkeeps : Keeps t t')
    (hback : Keeps t' t) : t'.LeadsToFile path := by
  obtain ⟨p, hresolve, hfile⟩ := h
  exact ⟨p, hkeeps.resolve hs hresolve, fun d hd => hfile d (hback.node?_eq hd)⟩

theorem asksDirectory_append (before : String) {ending : String} (h : ending.toList ≠ []) :
    asksDirectory (before ++ ending) = asksDirectory ending := by
  unfold asksDirectory
  obtain ⟨c, hc⟩ := Option.ne_none_iff_exists'.mp (mt List.getLast?_eq_none_iff.mp h)
  rw [String.toList_append, List.getLast?_append, hc]
  rfl

/-- The sibling of a path that asks for no directory asks for none. -/
theorem asksDirectory_temporarySibling (h : asksDirectory path = false) :
    asksDirectory (temporarySibling path) = false := by
  have hending : asksDirectory temporaryEnding = false := by decide
  have hsome : temporaryEnding.toList ≠ [] := by decide
  unfold temporarySibling
  split
  · exact h
  · split
    · split
      · rw [asksDirectory_append _ (by decide)]
        decide
      · rw [asksDirectory_append _ hsome, hending]
    · rw [asksDirectory_append _ hsome, hending]

/-- Where nothing is refused a place is open to a file if it is no directory. -/
theorem isOpen_of_unrefused (h : t.refusals = .none) (hp : ∀ d, t.node? p ≠ some (.directory d)) :
    t.IsOpen p := by
  unfold IsOpen
  rw [h]
  split
  · rfl
  · rfl
  · rename_i d hd
    exact hp d hd

/-- Where nothing is refused a file can be renamed to any name that is no directory's. -/
theorem rename_of_unrefused {source target : String} {q : Place} (h : t.refusals = .none)
    (hsource : t.resolve source = .ok (.name p)) (hnode : t.node? p = some (.file f))
    (htarget : t.resolve target = .ok (.name q)) (hasks : asksDirectory target = false)
    (hq : ∀ d, t.node? q ≠ some (.directory d)) : (t.rename source target).1 = .ok () := by
  unfold rename
  rw [hsource, htarget]
  simp only [hnode, hasks, h, Refusals.none, Option.or_none, Bool.false_eq_true, if_false]
  by_cases hsame : t.node? q = some (.file f)
  · rw [if_pos hsame]
  · rw [if_neg hsame]

/-- Is a path one along which a file can be kept? Nothing is refused; the directory it lies
in is there or can be made, and then neither the path nor its sibling is a directory's. -/
structure Ordinary (t : RawTree) (path : String) : Prop where
  unrefused : t.refusals = .none
  asksDirectory_eq : asksDirectory path = false
  made : (t.makeDirectories (parent path)).1 = .ok ()
  file : (t.makeDirectories (parent path)).2.LeadsToFile path
  sibling : (t.makeDirectories (parent path)).2.LeadsToFile (temporarySibling path)

/-- A workspace with one file of the given bytes in it. -/
def oneFile (name : String) (bytes : ByteArray) : RawTree :=
  (workspace.addFile ⟨1, name⟩).putContent 0 bytes

theorem sound_oneFile (name : String) (bytes : ByteArray) : (oneFile name bytes).Sound :=
  (sound_workspace.addFile _).putContent 0 bytes

/-- What is refused later does not matter to a tree's being sound, if nothing is of what is new. -/
theorem Sound.refusing (hs : t.Sound) {r : Refusals} (hsearch : ∀ d, r.search d = none)
    (hchange : ∀ d, r.change d = none) (hread : ∀ f, t.contents.size ≤ f → r.read f = none) :
    ({ t with refusals := r } : RawTree).Sound :=
  ⟨hs.root_lt, hs.here_lt, hs.parent_lt, hs.directory_lt, hs.file_lt, fun _ => hsearch _,
    fun _ => hchange _, hread _⟩

end RawTree

/-- A workspace with one file of the given bytes in it. -/
def Tree.oneFile (name : String) (bytes : ByteArray) : Tree :=
  ⟨RawTree.oneFile name bytes, RawTree.sound_oneFile name bytes⟩

/-- A workspace that cannot be opened to be flushed, while files can be kept in it. -/
def Tree.unlistable : Tree where
  toRawTree := { RawTree.workspace with refusals := { list := fun _ => some .permissionDenied } }
  sound := RawTree.sound_workspace.refusing (fun _ => rfl) (fun _ => rfl) fun _ _ => rfl

end ScopedSettings.Files
