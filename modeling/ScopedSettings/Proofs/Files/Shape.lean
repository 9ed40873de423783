/-
Trees of one shape: the same names stand for directories, for files and for
nothing, whichever the files are.

Where a path leads does not depend on what the files hold or how they are
numbered (`SameShape.resolve_eq`), and neither does whether a file can be renamed
to a name that is not its own (`SameShape.rename_eq`).
-/
import ScopedSettings.Proofs.Files.Parents

namespace ScopedSettings.Files

/-- The directory a node is, if it is one. -/
def Node.directory? : Node → Option DirectoryId
  | .directory d => some d
  | .file _ => none

/-- Is a node a directory, the given one? -/
@[simp] theorem Node.directory?_eq_some_iff {n : Node} {d : DirectoryId} :
    n.directory? = some d ↔ n = .directory d := by
  cases n <;> simp [directory?]

@[simp] theorem Node.directory?_eq_none_iff {n : Node} :
    n.directory? = none ↔ ∃ f, n = .file f := by
  cases n <;> simp [directory?]

namespace RawTree

/-- Trees whose names stand for the same directories, and for files alike, and in which the
same is refused. -/
structure SameShape (t t' : RawTree) : Prop where
  here_eq : t'.here = t.here
  refusals_eq : t'.refusals = t.refusals
  parent_eq (d : DirectoryId) : (t'.directory d).parent = (t.directory d).parent
  node?_eq (p : Place) : (t'.node? p).map Node.directory? = (t.node? p).map Node.directory?

variable {t t' : RawTree}

namespace SameShape

theorem node?_none (h : SameShape t t') {p : Place} (hp : t.node? p = none) :
    t'.node? p = none := by
  have heq := h.node?_eq p
  rw [hp] at heq
  exact Option.map_eq_none_iff.mp heq

theorem node?_directory (h : SameShape t t') {p : Place} {d : DirectoryId}
    (hp : t.node? p = some (.directory d)) : t'.node? p = some (.directory d) := by
  have heq := h.node?_eq p
  rw [hp] at heq
  obtain ⟨n, hn, hdirectory⟩ := Option.map_eq_some_iff.mp heq
  rw [hn, Node.directory?_eq_some_iff.mp hdirectory]

theorem node?_file (h : SameShape t t') {p : Place} {f : FileId}
    (hp : t.node? p = some (.file f)) : ∃ f', t'.node? p = some (.file f') := by
  have heq := h.node?_eq p
  rw [hp] at heq
  obtain ⟨n, hn, hdirectory⟩ := Option.map_eq_some_iff.mp heq
  obtain ⟨f', rfl⟩ := Node.directory?_eq_none_iff.mp hdirectory
  exact ⟨f', hn⟩

theorem step_eq (h : SameShape t t') (d : DirectoryId) (name : String) :
    t'.step d name = t.step d name := by
  unfold step
  rw [h.refusals_eq, h.parent_eq]
  cases hnode : t.node? ⟨d, name⟩ with
  | none => rw [h.node?_none hnode]
  | some n =>
    cases n with
    | directory e => rw [h.node?_directory hnode]
    | file f =>
      obtain ⟨f', hnode'⟩ := h.node?_file hnode
      rw [hnode']

theorem walk_eq (h : SameShape t t') (d : DirectoryId) (names : List String) :
    t'.walk d names = t.walk d names := by
  induction names generalizing d with
  | nil => rfl
  | cons name rest ih =>
    rw [walk, walk, h.step_eq]
    simp only [ih]

theorem resolve_eq (h : SameShape t t') (path : String) : t'.resolve path = t.resolve path := by
  unfold resolve lastStep
  simp only [h.here_eq, h.walk_eq, h.parent_eq, h.refusals_eq]

/-- A file can be given a name that is not its own in one tree as it can in the other, or not
for the same reason. -/
theorem rename_eq (h : SameShape t t') {source target : String} {p : Place} {f f' : FileId}
    (hsource : t.resolve source = .ok (.name p)) (hnode : t.node? p = some (.file f))
    (hnode' : t'.node? p = some (.file f'))
    (hother : ∀ q, t.resolve target = .ok (.name q) → t.node? q ≠ some (.file f) ∧
      t'.node? q ≠ some (.file f')) :
    (t'.rename source target).1 = (t.rename source target).1 := by
  unfold rename
  rw [h.resolve_eq source, h.resolve_eq target, h.refusals_eq, hsource]
  cases hresolve : t.resolve target with
  | error e => rfl
  | ok goal =>
  cases goal with
  | directory d => rfl
  | name q =>
  obtain ⟨hne, hne'⟩ := hother q hresolve
  simp only [hnode, hnode', if_neg hne, if_neg hne']
  split
  · rfl
  split
  · rfl
  cases hq : t.node? q with
  | none =>
    rw [h.node?_none hq]
    cases t.refusals.replace q <;> rfl
  | some n =>
    cases n with
    | directory d => rw [h.node?_directory hq]
    | file g =>
      obtain ⟨g', hq'⟩ := h.node?_file hq
      rw [hq']
      cases t.refusals.replace q <;> rfl

end SameShape

/-- Trees of one shape but for a place, where neither has a directory. -/
structure SameShapeBut (t t' : RawTree) (q : Place) : Prop where
  here_eq : t'.here = t.here
  refusals_eq : t'.refusals = t.refusals
  size_eq : t'.directories.size = t.directories.size
  parent_eq (d : DirectoryId) : (t'.directory d).parent = (t.directory d).parent
  node?_eq {p : Place} (h : p ≠ q) :
    (t'.node? p).map Node.directory? = (t.node? p).map Node.directory?
  file_before (d : DirectoryId) : t.node? q ≠ some (.directory d)
  file_after (d : DirectoryId) : t'.node? q ≠ some (.directory d)

theorem ChangesFile.sameShapeBut {q : Place} (h : ChangesFile t t' q) : SameShapeBut t t' q :=
  ⟨h.here_eq, h.refusals_eq, h.size_eq, h.parent_eq, fun hp => by rw [h.node?_eq hp],
    h.file_before, h.file_after⟩

namespace SameShapeBut

variable {q : Place}

theorem symm (h : SameShapeBut t t' q) : SameShapeBut t' t q :=
  ⟨h.here_eq.symm, h.refusals_eq.symm, h.size_eq.symm, fun d => (h.parent_eq d).symm,
    fun hp => (h.node?_eq hp).symm, h.file_after, h.file_before⟩

theorem trans {t'' : RawTree} (h : SameShapeBut t t' q) (h' : SameShapeBut t' t'' q) :
    SameShapeBut t t'' q :=
  ⟨h'.here_eq.trans h.here_eq, h'.refusals_eq.trans h.refusals_eq, h'.size_eq.trans h.size_eq,
    fun d => (h'.parent_eq d).trans (h.parent_eq d),
    fun hp => (h'.node?_eq hp).trans (h.node?_eq hp), h.file_before, h'.file_after⟩

theorem keeps (h : SameShapeBut t t' q) : Keeps t t' where
  here_eq := h.here_eq
  refusals_eq := h.refusals_eq
  size_le := Nat.le_of_eq h.size_eq.symm
  parent_eq _ := h.parent_eq _
  node?_eq {p d} hp := by
    have hq : p ≠ q := by
      rintro rfl
      exact h.file_before d hp
    have heq := h.node?_eq hq
    rw [hp] at heq
    obtain ⟨n, hn, hdirectory⟩ := Option.map_eq_some_iff.mp heq
    rw [hn, Node.directory?_eq_some_iff.mp hdirectory]

/-- Where both have a file there they are of one shape. -/
theorem sameShape (h : SameShapeBut t t' q) {f f' : FileId} (hq : t.node? q = some (.file f))
    (hq' : t'.node? q = some (.file f')) : SameShape t t' where
  here_eq := h.here_eq
  refusals_eq := h.refusals_eq
  parent_eq := h.parent_eq
  node?_eq p := by
    by_cases hp : p = q
    · subst hp
      rw [hq, hq']
      rfl
    · exact h.node?_eq hp

/-- So they are when a file has gone from there to another place. -/
theorem renamed (h : SameShapeBut t t' q) (hq : q.directory < t.directories.size) {r : Place}
    (hr : r.directory < t.directories.size) (hqr : q ≠ r) (f f' : FileId) :
    SameShapeBut ((t.dropNode q).putNode r (.file f)) ((t'.dropNode q).putNode r (.file f')) q where
  here_eq := h.here_eq
  refusals_eq := h.refusals_eq
  size_eq := by simp [h.size_eq]
  parent_eq d := by simp [h.parent_eq d]
  node?_eq {p} hp := by
    by_cases hpr : p = r
    · subst hpr
      rw [node?_putNode_self _ (by rwa [size_dropNode, h.size_eq]),
        node?_putNode_self _ (by rwa [size_dropNode])]
      rfl
    · rw [node?_putNode_other _ hpr, node?_putNode_other _ hpr, node?_dropNode_other _ hp,
        node?_dropNode_other _ hp, h.node?_eq hp]
  file_before d := by
    rw [node?_putNode_other _ hqr, node?_dropNode_self _ hq]
    simp
  file_after d := by
    rw [node?_putNode_other _ hqr, node?_dropNode_self _ (by rwa [h.size_eq])]
    simp

end SameShapeBut

/-! ## Directories that are not made -/

/-- Has nothing changed, unless there are more directories? -/
def SameOrLarger (t t' : RawTree) : Prop :=
  t' = t ∨ t.directories.size < t'.directories.size

theorem SameOrLarger.trans {t'' : RawTree} (h : SameOrLarger t t') (h' : SameOrLarger t' t'') :
    SameOrLarger t t'' := by
  rcases h with rfl | h
  · exact h'
  · rcases h' with rfl | h'
    · exact .inr h
    · exact .inr (Nat.lt_trans h h')

theorem sameOrLarger_makeDirectory (t : RawTree) (path : String) :
    SameOrLarger t (t.makeDirectory path).2 := by
  unfold RawTree.makeDirectory
  split
  · exact .inl rfl
  · exact .inl rfl
  · split
    · exact .inl rfl
    · exact .inl rfl
    · refine .inr ?_
      dsimp only
      rw [size_addDirectory]
      exact Nat.lt_succ_self _

theorem sameOrLarger_makeDirectoriesFrom (t : RawTree) (path : String) (fuel : Nat) :
    SameOrLarger t (t.makeDirectoriesFrom path fuel).2 := by
  induction fuel generalizing t path with
  | zero => exact .inl rfl
  | succ fuel ih =>
    unfold RawTree.makeDirectoriesFrom
    have hfirst := t.sameOrLarger_makeDirectory path
    split
    · rename_i t₁ hmade
      rw [hmade] at hfirst
      exact hfirst
    · rename_i t₁ hmade
      rw [hmade] at hfirst
      have hparent := ih t₁ (parent path)
      split
      · rename_i f t₂ hmade₂
        rw [hmade₂] at hparent
        exact hfirst.trans hparent
      · rename_i t₂ hmade₂
        rw [hmade₂] at hparent
        have hagain := t₂.sameOrLarger_makeDirectory path
        split
        · rename_i t₃ hmade₃
          rw [hmade₃] at hagain
          exact (hfirst.trans hparent).trans hagain
        · rename_i f t₃ hmade₃
          rw [hmade₃] at hagain
          split <;> exact (hfirst.trans hparent).trans hagain
    · rename_i f t₁ _ hmade
      rw [hmade] at hfirst
      split <;> exact hfirst

/-- A tree with no more directories than before they were made is as it was. -/
theorem eq_of_size_makeDirectories {path : String} {answer : Except Failure Unit}
    (h : t.makeDirectories path = (answer, t')) (hsize : t'.directories.size = t.directories.size) :
    t' = t := by
  have hmade := t.sameOrLarger_makeDirectoriesFrom path (path.length + 1)
  unfold RawTree.makeDirectories at h
  rw [h] at hmade
  rcases hmade with hmade | hmade
  · exact hmade
  · exact absurd hsize (Nat.ne_of_gt hmade)

end RawTree
end ScopedSettings.Files
