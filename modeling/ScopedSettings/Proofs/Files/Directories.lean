/-
What stays when directories are made.

`RawTree.Keeps` says that a tree has another's directories where they were; a path
that has been followed leads to the same place then (`Keeps.resolve`). Making
directories does more (`RawTree.Grows`): what is new are empty directories where
nothing was, and in these again only such. A path that does not turn back with
`..` therefore finds no file that was not there before (`Grows.readBytes`).
-/
import ScopedSettings.Files.Tree

namespace ScopedSettings.Files.RawTree

variable {t t' t'' : RawTree}

/-! ## Directories that stay -/

/-- A tree that has another's directories where they were, and refuses what that one does. -/
structure Keeps (t t' : RawTree) : Prop where
  here_eq : t'.here = t.here
  refusals_eq : t'.refusals = t.refusals
  size_le : t.directories.size ≤ t'.directories.size
  parent_eq {d : DirectoryId} (h : d < t.directories.size) :
    (t'.directory d).parent = (t.directory d).parent
  node?_eq {p : Place} {d : DirectoryId} (h : t.node? p = some (.directory d)) :
    t'.node? p = some (.directory d)

theorem Keeps.refl (t : RawTree) : Keeps t t :=
  ⟨rfl, rfl, Nat.le_refl _, fun _ => rfl, fun h => h⟩

theorem Keeps.trans (h : Keeps t t') (h' : Keeps t' t'') : Keeps t t'' where
  here_eq := h'.here_eq.trans h.here_eq
  refusals_eq := h'.refusals_eq.trans h.refusals_eq
  size_le := Nat.le_trans h.size_le h'.size_le
  parent_eq hd := (h'.parent_eq (Nat.lt_of_lt_of_le hd h.size_le)).trans (h.parent_eq hd)
  node?_eq hp := h'.node?_eq (h.node?_eq hp)

theorem Keeps.start_eq (h : Keeps t t') (path : String) : t'.start path = t.start path := by
  unfold start
  rw [h.here_eq]

theorem Keeps.step (h : Keeps t t') {d e : DirectoryId} {name : String}
    (hd : d < t.directories.size) (hstep : t.step d name = .ok e) : t'.step d name = .ok e := by
  rw [step_eq_ok_iff] at hstep ⊢
  rw [h.refusals_eq, h.parent_eq hd]
  obtain ⟨hopen, hstep⟩ := hstep
  exact ⟨hopen, hstep.imp_right (Or.imp_right fun ⟨hdot, hdots, hlong, hnode⟩ =>
    ⟨hdot, hdots, hlong, h.node?_eq hnode⟩)⟩

theorem Keeps.walk (h : Keeps t t') (hs : t.Sound) {d e : DirectoryId} {names : List String}
    (hd : d < t.directories.size) (hwalk : t.walk d names = .ok e) : t'.walk d names = .ok e := by
  induction names generalizing d with
  | nil => exact hwalk
  | cons name rest ih =>
    rw [walk_cons_eq_ok_iff] at hwalk ⊢
    obtain ⟨d', hstep, hwalk⟩ := hwalk
    exact ⟨d', h.step hd hstep, ih (hs.step_lt hd hstep) hwalk⟩

theorem Keeps.lastStep_eq (h : Keeps t t') {d : DirectoryId} (hd : d < t.directories.size)
    (last : String) : t'.lastStep d last = t.lastStep d last := by
  unfold lastStep
  rw [h.refusals_eq, h.parent_eq hd]

/-- A path that has been followed leads to the same place. -/
theorem Keeps.resolve (h : Keeps t t') (hs : t.Sound) {path : String}
    {target : Target} (hpath : t.resolve path = .ok target) : t'.resolve path = .ok target := by
  obtain ⟨hfollow, hleads⟩ := resolve_eq_ok_iff.mp hpath
  refine resolve_eq_ok_iff.mpr ⟨hfollow, ?_⟩
  cases hleads with
  | start hnames =>
    rw [← h.start_eq path]
    exact .start hnames
  | @last before last d target hnames hwalk hlast =>
    have hd := hs.walk_lt (hs.start_lt path) hwalk
    have hwalk' : t'.walk (t'.start path) before = .ok d := by
      rw [h.start_eq path]
      exact h.walk hs (hs.start_lt path) hwalk
    refine .last hnames hwalk' ?_
    rw [h.lastStep_eq hd]
    exact hlast

/-- A directory stays one. -/
theorem Keeps.isDirectory (h : Keeps t t') (hs : t.Sound) {path : String}
    (hpath : t.isDirectory path = true) : t'.isDirectory path = true := by
  unfold RawTree.isDirectory at hpath ⊢
  split at hpath
  · rename_i target hresolve
    rw [h.resolve hs hresolve]
    split at hpath
    · rename_i d hat
      have hat' : t'.at? target = some (.directory d) := by
        cases target with
        | directory e => exact hat
        | name p => exact h.node?_eq hat
      simp [hat']
    · cases hpath
  · cases hpath

/-- A directory that is there can be flushed as before. -/
theorem Keeps.syncDirectory_eq (h : Keeps t t') (hs : t.Sound) {path : String}
    (hpath : t.isDirectory path = true) : t'.syncDirectory path = t.syncDirectory path := by
  unfold RawTree.isDirectory at hpath
  unfold syncDirectory
  rw [h.refusals_eq]
  split at hpath
  · rename_i target hresolve
    rw [hresolve, h.resolve hs hresolve]
    split at hpath
    · rename_i d hat
      have hat' : t'.at? target = some (.directory d) := by
        cases target with
        | directory e => exact hat
        | name p => exact h.node?_eq hat
      simp [hat, hat']
    · cases hpath
  · cases hpath

/-! ## New directories -/

/-- What making directories does: new ones stand where nothing was, and hold only such. -/
structure Grows (t t' : RawTree) : Prop where
  here_eq : t'.here = t.here
  refusals_eq : t'.refusals = t.refusals
  size_le : t.directories.size ≤ t'.directories.size
  parent_eq {d : DirectoryId} (h : d < t.directories.size) :
    (t'.directory d).parent = (t.directory d).parent
  contents_eq : t'.contents = t.contents
  node?_cases (p : Place) : t'.node? p = t.node? p ∨
    t.node? p = none ∧ ∃ d, t.directories.size ≤ d ∧ t'.node? p = some (.directory d)

theorem Grows.refl (t : RawTree) : Grows t t :=
  ⟨rfl, rfl, Nat.le_refl _, fun _ => rfl, rfl, fun _ => .inl rfl⟩

theorem Grows.trans (h : Grows t t') (h' : Grows t' t'') : Grows t t'' where
  here_eq := h'.here_eq.trans h.here_eq
  refusals_eq := h'.refusals_eq.trans h.refusals_eq
  size_le := Nat.le_trans h.size_le h'.size_le
  parent_eq hd := (h'.parent_eq (Nat.lt_of_lt_of_le hd h.size_le)).trans (h.parent_eq hd)
  contents_eq := h'.contents_eq.trans h.contents_eq
  node?_cases p := by
    rcases h.node?_cases p with hp | ⟨hp, d, hd, hd'⟩
    · rcases h'.node?_cases p with hp' | ⟨hp', e, he, he'⟩
      · exact .inl (hp'.trans hp)
      · exact .inr ⟨hp ▸ hp', e, Nat.le_trans h.size_le he, he'⟩
    · rcases h'.node?_cases p with hp' | ⟨hp', -⟩
      · exact .inr ⟨hp, d, hd, hp'.trans hd'⟩
      · rw [hd'] at hp'
        cases hp'

theorem Grows.node?_eq (h : Grows t t') {p : Place} {n : Node}
    (hp : t.node? p = some n) : t'.node? p = some n := by
  rcases h.node?_cases p with hp' | ⟨hp', -⟩
  · rw [hp', hp]
  · rw [hp] at hp'
    cases hp'

theorem Grows.keeps (h : Grows t t') : Keeps t t' :=
  ⟨h.here_eq, h.refusals_eq, h.size_le, h.parent_eq, h.node?_eq⟩

/-- No file is new. -/
theorem Grows.file_eq (h : Grows t t') {p : Place} {f : FileId}
    (hp : t'.node? p = some (.file f)) : t.node? p = some (.file f) := by
  rcases h.node?_cases p with hp' | ⟨-, d, -, hd⟩
  · rw [← hp', hp]
  · rw [hp] at hd
    cases hd

theorem Grows.content_eq (h : Grows t t') (f : FileId) :
    t'.content f = t.content f := by
  unfold content
  rw [h.contents_eq]

theorem grows_addDirectory {p : Place} (hp : p.directory < t.directories.size)
    (h : t.node? p = none) : Grows t (t.addDirectory p) where
  here_eq := rfl
  refusals_eq := rfl
  size_le := by simp
  parent_eq := parent_addDirectory
  contents_eq := rfl
  node?_cases q := by
    by_cases hq : q = p
    · subst hq
      exact .inr ⟨h, _, Nat.le_refl _, node?_addDirectory_self hp⟩
    · exact .inl (t.node?_addDirectory_other hq)

/-! ## Making directories -/

/-- Making a directory succeeds where nothing is and nothing is refused. -/
theorem makeDirectory_eq_ok_iff {path : String} :
    t.makeDirectory path = (.ok (), t') ↔ ∃ p, t.resolve path = .ok (.name p) ∧
      t.node? p = none ∧ t.refusals.change p.directory = none ∧ t' = t.addDirectory p := by
  unfold makeDirectory
  cases t.resolve path with
  | error f => simp
  | ok target =>
    cases target with
    | directory d => simp
    | name p =>
      cases hnode : t.node? p with
      | some n => simp [hnode]
      | none =>
        cases hchange : t.refusals.change p.directory <;> simp [hnode, hchange, eq_comm]

theorem eq_of_makeDirectory_error {path : String} {f : Failure}
    (h : t.makeDirectory path = (.error f, t')) : t' = t := by
  unfold makeDirectory at h
  split at h
  · cases h
    rfl
  · cases h
    rfl
  · split at h <;> cases h <;> rfl

theorem Sound.grows_makeDirectory (hs : t.Sound) {path : String} {answer : Except Failure Unit}
    (h : t.makeDirectory path = (answer, t')) : Grows t t' := by
  cases answer with
  | error f =>
    rw [eq_of_makeDirectory_error h]
    exact .refl t
  | ok _ =>
    obtain ⟨p, hresolve, hnode, -, rfl⟩ := makeDirectory_eq_ok_iff.mp h
    exact grows_addDirectory (hs.place_lt hresolve) hnode

/-- A directory that has been made is one. -/
theorem Sound.isDirectory_makeDirectory (hs : t.Sound) {path : String}
    (h : t.makeDirectory path = (.ok (), t')) : t'.isDirectory path = true := by
  obtain ⟨p, hresolve, hnode, -, rfl⟩ := makeDirectory_eq_ok_iff.mp h
  have hp := hs.place_lt hresolve
  have hresolve' := (grows_addDirectory hp hnode).keeps.resolve hs hresolve
  have hat : (t.addDirectory p).at? (.name p) = some (.directory t.directories.size) :=
    node?_addDirectory_self hp
  unfold isDirectory
  rw [hresolve']
  simp only [hat]

theorem Sound.made_from (hs : t.Sound) {path : String} {fuel : Nat}
    {answer : Except Failure Unit} (h : t.makeDirectoriesFrom path fuel = (answer, t')) :
    Grows t t' ∧ (answer = .ok () → t'.isDirectory path = true) := by
  induction fuel generalizing t t' path answer with
  | zero =>
    cases h
    exact ⟨.refl t, fun h => by cases h⟩
  | succ fuel ih =>
    unfold RawTree.makeDirectoriesFrom at h
    have hdirectory {f : Failure} {t₁ : RawTree}
        (h : (if t₁.isDirectory path then (.ok (), t₁) else (.error f, t₁)) = (answer, t')) :
        t' = t₁ ∧ (answer = .ok () → t'.isDirectory path = true) := by
      split at h
      · rename_i hdir
        cases h
        exact ⟨rfl, fun _ => hdir⟩
      · cases h
        exact ⟨rfl, fun h => by cases h⟩
    split at h
    · rename_i t₁ hmade
      cases h
      exact ⟨hs.grows_makeDirectory hmade, fun _ => hs.isDirectory_makeDirectory hmade⟩
    · -- what the path lies in is made first, then the path is tried again
      rename_i t₁ hmade
      obtain rfl := eq_of_makeDirectory_error hmade
      split at h
      · rename_i f t₂ hparent
        cases h
        exact ⟨(ih hs hparent).1, fun h => by cases h⟩
      · rename_i t₂ hparent
        have hgrows := (ih hs hparent).1
        have hsound : t₂.Sound := by
          have hsound := hs.makeDirectoriesFrom (parent path) fuel
          rw [hparent] at hsound
          exact hsound
        split at h
        · rename_i t₃ hagain
          cases h
          exact ⟨hgrows.trans (hsound.grows_makeDirectory hagain),
            fun _ => hsound.isDirectory_makeDirectory hagain⟩
        · rename_i f t₃ hagain
          obtain rfl := eq_of_makeDirectory_error hagain
          obtain ⟨rfl, hdir⟩ := hdirectory h
          exact ⟨hgrows, hdir⟩
    · rename_i f t₁ _ hmade
      obtain rfl := eq_of_makeDirectory_error hmade
      obtain ⟨rfl, hdir⟩ := hdirectory h
      exact ⟨.refl _, hdir⟩

theorem Sound.made (hs : t.Sound) {path : String} {answer : Except Failure Unit}
    (h : t.makeDirectories path = (answer, t')) : Grows t t' ∧ t'.Sound := by
  have hsound := hs.makeDirectories path
  rw [h] at hsound
  exact ⟨(hs.made_from h).1, hsound⟩

theorem Sound.isDirectory_makeDirectories (hs : t.Sound) {path : String}
    (h : t.makeDirectories path = (.ok (), t')) : t'.isDirectory path = true :=
  (hs.made_from h).2 rfl

/-- Where there is a directory nothing is made. -/
theorem makeDirectories_of_isDirectory {path : String} (h : t.isDirectory path = true) :
    t.makeDirectories path = (.ok (), t) := by
  have hmade : t.makeDirectory path = (.error .alreadyExists, t) := by
    unfold isDirectory at h
    split at h
    · rename_i target hresolve
      unfold makeDirectory
      rw [hresolve]
      cases target with
      | directory d => rfl
      | name p =>
        cases hnode : t.node? p with
        | none => simp [at?, hnode] at h
        | some n => simp [hnode]
    · cases h
  unfold makeDirectories makeDirectoriesFrom
  rw [hmade]
  simp [h]

/-! ## Files that are found after directories have been made -/

/-- A path that turns back only where the way is there already. -/
def Straight (t : RawTree) (path : String) : Prop :=
  ".." ∈ names path → ∃ target, t.resolve path = .ok target

/-- Without turning back a step leads where it led before, or to a new directory. -/
theorem Grows.step_cases (h : Grows t t') {d e : DirectoryId} {name : String} (hback : name ≠ "..")
    (hstep : t'.step d name = .ok e) :
    t.step d name = .ok e ∨ t.directories.size ≤ e := by
  rw [step_eq_ok_iff, h.refusals_eq] at hstep
  obtain ⟨hopen, hstay | ⟨hdots, -⟩ | ⟨hdot, -, hlong, hnode⟩⟩ := hstep
  · exact .inl (step_eq_ok_iff.mpr ⟨hopen, .inl hstay⟩)
  · exact absurd hdots hback
  · rcases h.node?_cases ⟨d, name⟩ with hp | ⟨-, e', he, hp⟩
    · rw [hp] at hnode
      exact .inl (step_eq_ok_iff.mpr ⟨hopen, .inr (.inr ⟨hdot, hback, hlong, hnode⟩)⟩)
    · rw [hnode] at hp
      cases hp
      exact .inr he

/-- From a new directory only new ones can be reached without turning back. -/
theorem Grows.walk_new (h : Grows t t') {d e : DirectoryId} {names : List String}
    (hnames : ".." ∉ names) (hd : t.directories.size ≤ d) (hwalk : t'.walk d names = .ok e) :
    t.directories.size ≤ e := by
  induction names generalizing d with
  | nil =>
    cases hwalk
    exact hd
  | cons name rest ih =>
    obtain ⟨d', hstep, hwalk⟩ := walk_cons_eq_ok_iff.mp hwalk
    obtain ⟨hback, hrest⟩ := not_or.mp (mt List.mem_cons.mpr hnames)
    refine ih hrest ?_ hwalk
    rcases h.step_cases (Ne.symm hback) hstep with hold | hnew
    · -- a directory that was not there leads nowhere but to itself
      obtain ⟨-, ⟨-, rfl⟩ | ⟨hdots, -⟩ | ⟨-, -, -, hnode⟩⟩ := step_eq_ok_iff.mp hold
      · exact hd
      · exact absurd hdots.symm hback
      · rw [node?_of_size_le hd] at hnode
        cases hnode
    · exact hnew

/-- Without turning back one comes to where one came before, or to a new directory. -/
theorem Grows.walk_cases (h : Grows t t') {d e : DirectoryId} {names : List String}
    (hnames : ".." ∉ names) (hwalk : t'.walk d names = .ok e) :
    t.walk d names = .ok e ∨ t.directories.size ≤ e := by
  induction names generalizing d with
  | nil => exact .inl hwalk
  | cons name rest ih =>
    obtain ⟨d', hstep, hwalk⟩ := walk_cons_eq_ok_iff.mp hwalk
    obtain ⟨hback, hrest⟩ := not_or.mp (mt List.mem_cons.mpr hnames)
    rcases h.step_cases (Ne.symm hback) hstep with hold | hnew
    · exact (ih hrest hwalk).imp_left fun hwalk => walk_cons_eq_ok_iff.mpr ⟨d', hold, hwalk⟩
    · exact .inr (h.walk_new hrest hnew hwalk)

/-- A file that a straight path leads to after directories have been made was there
before. -/
theorem Grows.file_of_straight (h : Grows t t') (hs : t.Sound) {path : String}
    (hpath : t.Straight path) {p : Place} (hresolve : t'.resolve path = .ok (.name p)) {f : FileId}
    (hnode : t'.node? p = some (.file f)) : t.resolve path = .ok (.name p) := by
  by_cases hback : ".." ∈ names path
  · obtain ⟨target, htarget⟩ := hpath hback
    have := h.keeps.resolve hs htarget
    rw [hresolve] at this
    cases this
    exact htarget
  · obtain ⟨hfollow, hleads⟩ := resolve_eq_ok_iff.mp hresolve
    refine resolve_eq_ok_iff.mpr ⟨hfollow, ?_⟩
    cases hleads with
    | @last before last d _ hnames hwalk hlast =>
      obtain ⟨-, rfl, -⟩ := lastStep_eq_name_iff.mp hlast
      have hbefore : ".." ∉ before := fun hm => hback (by simp [hnames, hm])
      rw [h.keeps.start_eq path] at hwalk
      rcases h.walk_cases hbefore hwalk with hwalk' | hnew
      · have hd := hs.walk_lt (hs.start_lt path) hwalk'
        rw [h.keeps.lastStep_eq hd] at hlast
        exact .last hnames hwalk' hlast
      · have hnone := h.file_eq hnode
        rw [node?_of_size_le hnew] at hnone
        cases hnone

end ScopedSettings.Files.RawTree
