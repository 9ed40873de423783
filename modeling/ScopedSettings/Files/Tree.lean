/-
Trees whose numbers are those of what they hold.

In a sound tree no name, no directory and no path leads to a number that has not been
given out (`RawTree.Sound`), so that what is made next is new; and what will be made is
open to those who make it. Every operation keeps a tree sound, so a tree carries this
with it (`Tree`).
-/
import ScopedSettings.Files.RawTree

namespace ScopedSettings.Files

namespace RawTree

/-- The numbers in a tree are those of its directories and files, and no directory or file
that is new will be closed. -/
structure Sound (t : RawTree) : Prop where
  root_lt : root < t.directories.size
  here_lt : t.here < t.directories.size
  parent_lt (d : DirectoryId) : (t.directory d).parent < t.directories.size
  directory_lt {p : Place} {d : DirectoryId} (h : t.node? p = some (.directory d)) :
    d < t.directories.size
  file_lt {p : Place} {f : FileId} (h : t.node? p = some (.file f)) : f < t.contents.size
  search_new {d : DirectoryId} (h : t.directories.size ≤ d) : t.refusals.search d = none
  change_new {d : DirectoryId} (h : t.directories.size ≤ d) : t.refusals.change d = none
  read_new {f : FileId} (h : t.contents.size ≤ f) : t.refusals.read f = none

variable {t t' : RawTree}

theorem node?_of_size_le {p : Place} (h : t.directories.size ≤ p.directory) :
    t.node? p = none := by
  simp [node?, directory, Array.getElem?_eq_none h, Directory.find?]

/-! ## Steps of paths -/

/-- Where a name can lead: nowhere else, to the directory that the directory lies in, or to one
that the name stands for. -/
theorem step_eq_ok_iff {d e : DirectoryId} {name : String} :
    t.step d name = .ok e ↔ t.refusals.search d = none ∧
      (name = "." ∧ e = d ∨ name = ".." ∧ e = (t.directory d).parent ∨
        name ≠ "." ∧ name ≠ ".." ∧ name.utf8ByteSize ≤ longestName ∧
          t.node? ⟨d, name⟩ = some (.directory e)) := by
  unfold step
  rw [unlessRefused_eq_ok_iff]
  refine and_congr_right fun _ => ?_
  by_cases hdot : name = "."
  · simp [hdot, eq_comm]
  by_cases hdots : name = ".."
  · simp [hdots, eq_comm]
  by_cases hlong : name.utf8ByteSize > longestName
  · simp [hdot, hdots, hlong, Nat.not_le.mpr hlong]
  · simp only [beq_iff_eq, hdot, hdots, hlong, if_false, false_and, false_or, ne_eq,
      not_false_eq_true, true_and, Nat.not_lt.mp hlong]
    split <;> simp_all

/-- What a name has to be, and what it stands for, to be missed. -/
theorem step_eq_notFound_iff {d : DirectoryId} {name : String} :
    t.step d name = .error .notFound ↔ t.refusals.search d = none ∧ name ≠ "." ∧ name ≠ ".." ∧
      name.utf8ByteSize ≤ longestName ∧ t.node? ⟨d, name⟩ = none := by
  unfold step
  cases t.refusals.search d with
  | some f => simp
  | none =>
    by_cases hdot : name = "."
    · simp [hdot]
    by_cases hdots : name = ".."
    · simp [hdots]
    by_cases hlong : name.utf8ByteSize > longestName
    · simp [hdot, hdots, hlong, Nat.not_le.mpr hlong]
    · simp only [unlessRefused_none, beq_iff_eq, hdot, hdots, hlong, if_false, ne_eq,
        not_false_eq_true, true_and, Nat.not_lt.mp hlong]
      split <;> simp_all

theorem walk_cons_eq_ok_iff {d e : DirectoryId} {name : String} {rest : List String} :
    t.walk d (name :: rest) = .ok e ↔ ∃ d', t.step d name = .ok d' ∧ t.walk d' rest = .ok e := by
  rw [walk]
  cases t.step d name with
  | error f => simp
  | ok d' => simp

theorem Sound.step_lt (hs : t.Sound) {d e : DirectoryId} {name : String}
    (hd : d < t.directories.size) (h : t.step d name = .ok e) : e < t.directories.size := by
  obtain ⟨-, ⟨-, rfl⟩ | ⟨-, rfl⟩ | ⟨-, -, -, hnode⟩⟩ := step_eq_ok_iff.mp h
  · exact hd
  · exact hs.parent_lt d
  · exact hs.directory_lt hnode

/-- The directory that names lead to is one of the tree. -/
theorem Sound.walk_lt (hs : t.Sound) {d e : DirectoryId} {names : List String}
    (hd : d < t.directories.size) (h : t.walk d names = .ok e) : e < t.directories.size := by
  induction names generalizing d with
  | nil =>
    cases h
    exact hd
  | cons name rest ih =>
    obtain ⟨d', hstep, hwalk⟩ := walk_cons_eq_ok_iff.mp h
    exact ih (hs.step_lt hd hstep) hwalk

/-! ## Following paths -/

/-- Can a path be followed at all? -/
def IsFollowable (path : String) : Prop :=
  path.toList.contains '\x00' = false ∧ path.utf8ByteSize ≤ longestPath ∧ path.isEmpty = false

/-- The directory a path starts from. -/
def start (t : RawTree) (path : String) : DirectoryId :=
  if isAbsolute path then root else t.here

/-- Where the names of a path lead. -/
inductive Leads (t : RawTree) (path : String) : Target → Prop
  | start (h : names path = []) : Leads t path (.directory (t.start path))
  | last {before : List String} {last : String} {d : DirectoryId} {target : Target}
    (h : names path = before ++ [last]) (hwalk : t.walk (t.start path) before = .ok d)
    (hlast : t.lastStep d last = .ok target) : Leads t path target

/-- A path is resolved exactly if it can be followed and its names lead somewhere. -/
theorem resolve_eq_ok_iff {path : String} {target : Target} :
    t.resolve path = .ok target ↔ IsFollowable path ∧ t.Leads path target := by
  constructor
  · intro h
    unfold resolve at h
    split at h
    · cases h
    rename_i hzero
    split at h
    · cases h
    rename_i hlong
    split at h
    · cases h
    rename_i hempty
    refine ⟨⟨by simpa using hzero, by omega, by simpa using hempty⟩, ?_⟩
    dsimp only at h
    split at h
    · rename_i hnames
      cases h
      exact .start (List.reverse_eq_nil_iff.mp hnames)
    · rename_i last before hnames
      have hnames : names path = before.reverse ++ [last] := by
        rw [← List.reverse_reverse (names path), hnames, List.reverse_cons]
      split at h
      · cases h
      · rename_i d hwalk
        exact .last hnames hwalk h
  · rintro ⟨⟨hzero, hlong, hempty⟩, hleads⟩
    unfold resolve
    rw [if_neg (by simpa using hzero), if_neg (by omega), if_neg (by simpa using hempty)]
    cases hleads with
    | start h =>
      rw [h]
      rfl
    | @last before last d target h hwalk hlast =>
      have hreverse : (names path).reverse = last :: before.reverse := by simp [h]
      rw [hreverse]
      dsimp only
      rw [List.reverse_reverse]
      have hwalk' : t.walk (if isAbsolute path then root else t.here) before = .ok d := hwalk
      rw [hwalk']
      exact hlast

theorem Sound.start_lt (hs : t.Sound) (path : String) : t.start path < t.directories.size := by
  unfold start
  split
  · exact hs.root_lt
  · exact hs.here_lt

theorem lastStep_eq_name_iff {d : DirectoryId} {last : String} {p : Place} :
    t.lastStep d last = .ok (.name p) ↔ t.refusals.search d = none ∧
      p = ⟨d, last⟩ ∧ last ≠ "." ∧ last ≠ ".." ∧ last.utf8ByteSize ≤ longestName := by
  unfold lastStep
  rw [unlessRefused_eq_ok_iff]
  refine and_congr_right fun _ => ?_
  by_cases hdot : last = "."
  · simp [hdot]
  by_cases hdots : last = ".."
  · simp [hdots]
  by_cases hlong : last.utf8ByteSize > longestName
  · simp [hdot, hdots, hlong, Nat.not_le.mpr hlong]
  · simp only [beq_iff_eq, hdot, hdots, hlong, if_false, Except.ok.injEq, Target.name.injEq, ne_eq,
      not_false_eq_true, Nat.not_lt.mp hlong, and_true]
    exact eq_comm

/-- The last name of a path is not looked for when the path is resolved. -/
theorem lastStep_ne_notFound (t : RawTree) (d : DirectoryId) (last : String) :
    t.lastStep d last ≠ .error .notFound := by
  unfold lastStep unlessRefused
  intro h
  split at h
  · cases h
  split at h
  · cases h
  split at h
  · cases h
  split at h <;> cases h

/-- A place a path leads to lies in a directory of the tree. -/
theorem Sound.place_lt (hs : t.Sound) {path : String} {p : Place}
    (h : t.resolve path = .ok (.name p)) : p.directory < t.directories.size := by
  obtain ⟨-, hleads⟩ := resolve_eq_ok_iff.mp h
  cases hleads with
  | last hnames hwalk hlast =>
    obtain ⟨-, rfl, -⟩ := lastStep_eq_name_iff.mp hlast
    exact hs.walk_lt (hs.start_lt path) hwalk

/-! ## Changes to a tree -/

@[simp] theorem size_putNode (t : RawTree) (p : Place) (n : Node) :
    (t.putNode p n).directories.size = t.directories.size := by
  simp [putNode]

@[simp] theorem size_dropNode (t : RawTree) (p : Place) :
    (t.dropNode p).directories.size = t.directories.size := by
  simp [dropNode]

@[simp] theorem size_addDirectory (t : RawTree) (p : Place) :
    (t.addDirectory p).directories.size = t.directories.size + 1 := by
  simp [addDirectory]

theorem parent_modify (t : RawTree) (i : DirectoryId) {f : Directory → Directory}
    (hf : ∀ d, (f d).parent = d.parent) (d : DirectoryId) :
    (({ t with directories := t.directories.modify i f } : RawTree).directory d).parent =
      (t.directory d).parent := by
  unfold directory
  rw [Array.getElem?_modify]
  split
  · cases t.directories[d]? with
    | none => rfl
    | some e => exact hf e
  · rfl

@[simp] theorem parent_putNode (t : RawTree) (p : Place) (n : Node) (d : DirectoryId) :
    ((t.putNode p n).directory d).parent = (t.directory d).parent :=
  t.parent_modify p.directory (f := fun e => e.holding p.name n) (fun _ => rfl) d

@[simp] theorem parent_dropNode (t : RawTree) (p : Place) (d : DirectoryId) :
    ((t.dropNode p).directory d).parent = (t.directory d).parent :=
  t.parent_modify p.directory (f := fun e => e.without p.name) (fun _ => rfl) d

theorem directory_push (t : RawTree) (e : Directory) {d : DirectoryId}
    (h : d ≠ t.directories.size) :
    ({ t with directories := t.directories.push e } : RawTree).directory d = t.directory d := by
  unfold directory
  rw [Array.getElem?_push, if_neg h]

theorem directory_push_self (t : RawTree) (e : Directory) :
    ({ t with directories := t.directories.push e } : RawTree).directory t.directories.size =
      e := by
  simp [directory]

/-- A directory without entries holds nothing, and so does one that is not there. -/
theorem node?_push (t : RawTree) (parent : DirectoryId) (p : Place) :
    ({ t with directories := t.directories.push ⟨parent, []⟩ } : RawTree).node? p = t.node? p := by
  by_cases h : p.directory = t.directories.size
  · rw [node?_of_size_le (t := t) (Nat.le_of_eq h.symm)]
    unfold node?
    rw [h, directory_push_self]
    rfl
  · unfold node?
    rw [directory_push t _ h]

theorem node?_addDirectory_self {p : Place} (h : p.directory < t.directories.size) :
    (t.addDirectory p).node? p = some (.directory t.directories.size) := by
  refine node?_putNode_self _ ?_ _
  rw [Array.size_push]
  exact Nat.lt_succ_of_lt h

theorem node?_addDirectory_other (t : RawTree) {p q : Place} (h : q ≠ p) :
    (t.addDirectory p).node? q = t.node? q := by
  unfold addDirectory
  rw [node?_putNode_other _ h]
  exact t.node?_push p.directory q

theorem parent_addDirectory {p : Place} {d : DirectoryId} (h : d < t.directories.size) :
    ((t.addDirectory p).directory d).parent = (t.directory d).parent := by
  unfold addDirectory
  rw [parent_putNode, directory_push t _ (Nat.ne_of_lt h)]

/-! ## Soundness -/

/-- Is a node's number one of a tree? -/
def Numbers (t : RawTree) : Node → Prop
  | .directory d => d < t.directories.size
  | .file f => f < t.contents.size

/-- A tree is sound if what is new in it is numbered as it should be. -/
theorem Sound.of_numbers (hs : t.Sound) (hhere : t'.here = t.here)
    (hrefusals : t'.refusals = t.refusals) (hdirectories : t.directories.size ≤ t'.directories.size)
    (hcontents : t.contents.size ≤ t'.contents.size)
    (hparent : ∀ d, (t'.directory d).parent < t'.directories.size)
    (hnode : ∀ p n, t'.node? p = some n → t.node? p = some n ∨ t'.Numbers n) : t'.Sound where
  root_lt := Nat.lt_of_lt_of_le hs.root_lt hdirectories
  here_lt := by
    rw [hhere]
    exact Nat.lt_of_lt_of_le hs.here_lt hdirectories
  parent_lt := hparent
  directory_lt h := (hnode _ _ h).elim
    (fun hold => Nat.lt_of_lt_of_le (hs.directory_lt hold) hdirectories) id
  file_lt h := (hnode _ _ h).elim (fun hold => Nat.lt_of_lt_of_le (hs.file_lt hold) hcontents) id
  search_new h := by
    rw [hrefusals]
    exact hs.search_new (Nat.le_trans hdirectories h)
  change_new h := by
    rw [hrefusals]
    exact hs.change_new (Nat.le_trans hdirectories h)
  read_new h := by
    rw [hrefusals]
    exact hs.read_new (Nat.le_trans hcontents h)

/-- A node that stands somewhere after one has been put at a place is that one, or has stood
there before. -/
theorem node?_putNode_cases {p q : Place} {n m : Node} (h : (t.putNode p n).node? q = some m) :
    t.node? q = some m ∨ m = n := by
  by_cases hq : q = p
  · subst hq
    by_cases hlt : q.directory < t.directories.size
    · rw [t.node?_putNode_self hlt] at h
      exact .inr (Option.some.inj h).symm
    · rw [node?_of_size_le (by rw [size_putNode]; exact Nat.not_lt.mp hlt)] at h
      cases h
  · rw [t.node?_putNode_other hq] at h
    exact .inl h

theorem node?_dropNode_some {p q : Place} {n : Node} (h : (t.dropNode p).node? q = some n) :
    t.node? q = some n := by
  by_cases hq : q = p
  · subst hq
    by_cases hlt : q.directory < t.directories.size
    · rw [t.node?_dropNode_self hlt] at h
      cases h
    · rw [node?_of_size_le (by rw [size_dropNode]; exact Nat.not_lt.mp hlt)] at h
      cases h
  · rw [t.node?_dropNode_other hq] at h
    exact h

namespace Sound

variable (hs : t.Sound)
include hs

theorem putNode (p : Place) {n : Node} (hn : t.Numbers n) : (t.putNode p n).Sound := by
  refine hs.of_numbers rfl rfl (by simp) (Nat.le_refl _) (fun d => ?_) fun q m h => ?_
  · simpa using hs.parent_lt d
  · refine (node?_putNode_cases h).imp id ?_
    rintro rfl
    cases m with
    | directory d => simpa [Numbers] using hn
    | file f => exact hn

theorem dropNode (p : Place) : (t.dropNode p).Sound := by
  refine hs.of_numbers rfl rfl (by simp) (Nat.le_refl _) (fun d => ?_) fun q m h => ?_
  · simpa using hs.parent_lt d
  · exact .inl (node?_dropNode_some h)

theorem putContent (f : FileId) (bytes : ByteArray) : (t.putContent f bytes).Sound := by
  refine hs.of_numbers rfl rfl (Nat.le_refl _) ?_ hs.parent_lt fun q m h => .inl h
  simp [RawTree.putContent]

theorem overwrite (f : FileId) (bytes : ByteArray) : (t.overwrite f bytes).Sound :=
  hs.putContent f _

theorem addDirectory {p : Place} (hp : p.directory < t.directories.size) :
    (t.addDirectory p).Sound := by
  have hpush :
      ({ t with directories := t.directories.push ⟨p.directory, []⟩ } : RawTree).Sound := by
    refine hs.of_numbers rfl rfl (by simp) (Nat.le_refl _) (fun d => ?_) fun q m h => ?_
    · rw [Array.size_push]
      by_cases hd : d = t.directories.size
      · subst hd
        rw [directory_push_self]
        exact Nat.lt_succ_of_lt hp
      · rw [directory_push t _ hd]
        exact Nat.lt_succ_of_lt (hs.parent_lt d)
    · rw [t.node?_push] at h
      exact .inl h
  refine hpush.putNode p ?_
  simp [Numbers]

theorem addFile (p : Place) : (t.addFile p).Sound := by
  have hpush : ({ t with contents := t.contents.push .empty } : RawTree).Sound :=
    hs.of_numbers rfl rfl (Nat.le_refl _) (by simp) hs.parent_lt fun q m h => .inl h
  refine hpush.putNode p ?_
  simp [Numbers]

/-! ### Operations -/

theorem makeDirectory (path : String) : (t.makeDirectory path).2.Sound := by
  unfold RawTree.makeDirectory
  split
  · exact hs
  · exact hs
  · rename_i p hresolve
    split
    · exact hs
    · exact hs
    · exact hs.addDirectory (hs.place_lt hresolve)

theorem makeDirectoriesFrom (path : String) (fuel : Nat) :
    (t.makeDirectoriesFrom path fuel).2.Sound := by
  induction fuel generalizing t path with
  | zero => exact hs
  | succ fuel ih =>
    unfold RawTree.makeDirectoriesFrom
    have hfirst := hs.makeDirectory path
    split
    · rename_i t₁ hmade
      rw [hmade] at hfirst
      exact hfirst
    · rename_i t₁ hmade
      rw [hmade] at hfirst
      have hparent := ih hfirst (parent path)
      split
      · rename_i f t₂ hmade₂
        rw [hmade₂] at hparent
        exact hparent
      · rename_i t₂ hmade₂
        rw [hmade₂] at hparent
        have hagain := hparent.makeDirectory path
        split
        · rename_i t₃ hmade₃
          rw [hmade₃] at hagain
          exact hagain
        · rename_i f t₃ hmade₃
          rw [hmade₃] at hagain
          split <;> exact hagain
    · rename_i f t₁ _ hmade
      rw [hmade] at hfirst
      split <;> exact hfirst

theorem makeDirectories (path : String) : (t.makeDirectories path).2.Sound :=
  hs.makeDirectoriesFrom path _

theorem create (path : String) : (t.create path).2.Sound := by
  unfold RawTree.create
  split
  · exact hs
  · exact hs
  · split
    · exact hs
    · split
      · exact hs
      · split
        · exact hs
        · exact hs.putContent _ _
      · split
        · exact hs
        · exact hs.addFile _

theorem write (id : FileId) (bytes : ByteArray) : (t.write id bytes).2.Sound := by
  unfold RawTree.write
  split <;> exact hs.overwrite _ _

theorem rename (source target : String) : (t.rename source target).2.Sound := by
  unfold RawTree.rename
  split
  · exact hs
  · exact hs
  · split
    · exact hs
    · exact hs
    · rename_i id hnode
      split
      · exact hs
      split
      · exact hs
      split
      · exact hs
      split
      · exact hs
      split
      · exact hs
      · exact (hs.dropNode _).putNode _ (hs.file_lt hnode)
  · exact hs

theorem remove (path : String) : (t.remove path).2.Sound := by
  unfold RawTree.remove
  split
  · exact hs
  · exact hs
  · split
    · exact hs
    · exact hs
    · split
      · exact hs
      split
      · exact hs
      · exact hs.dropNode _

theorem putFile (path : String) (bytes : ByteArray) : (t.putFile path bytes).2.Sound := by
  unfold RawTree.putFile
  have hmade := hs.makeDirectories (parent path)
  split
  · rename_i f t₁ heq
    rw [heq] at hmade
    exact hmade
  · rename_i t₁ heq
    rw [heq] at hmade
    have hcreated := hmade.create path
    split
    · rename_i f t₂ heq₂
      rw [heq₂] at hcreated
      exact hcreated
    · rename_i id t₂ heq₂
      rw [heq₂] at hcreated
      exact hcreated.write id bytes

end Sound

theorem sound_empty : ({} : RawTree).Sound := by
  refine ⟨Nat.zero_lt_one, Nat.zero_lt_one, ?_, ?_, ?_, fun _ => rfl, fun _ => rfl, fun _ => rfl⟩
  · intro d
    cases d <;> exact Nat.zero_lt_one
  · rintro ⟨d, name⟩ e h
    cases d <;> cases h
  · rintro ⟨d, name⟩ f h
    cases d <;> cases h

theorem sound_workspace : workspace.Sound := by
  have hwork := sound_empty.addDirectory (p := ⟨root, "work"⟩) Nat.zero_lt_one
  exact ⟨hwork.root_lt, Nat.lt_succ_self 1, hwork.parent_lt, hwork.directory_lt, hwork.file_lt,
    fun _ => rfl, fun _ => rfl, fun _ => rfl⟩

end RawTree

/-- A sound tree of files. -/
structure Tree extends RawTree where
  sound : toRawTree.Sound

namespace Tree

instance : Coe Tree RawTree := ⟨toRawTree⟩

instance : EmptyCollection Tree := ⟨⟨{}, RawTree.sound_empty⟩⟩

theorem eq_of_toRawTree {t t' : Tree} (h : t.toRawTree = t'.toRawTree) : t = t' := by
  cases t
  cases t'
  cases h
  rfl

/-- An operation that keeps trees sound, on sound trees. -/
def lift (op : RawTree → α × RawTree) (hop : ∀ t : RawTree, t.Sound → (op t).2.Sound) (t : Tree) :
    α × Tree :=
  ((op t.toRawTree).1, ⟨(op t.toRawTree).2, hop t.toRawTree t.sound⟩)

theorem toRawTree_lift {op : RawTree → α × RawTree} {hop : ∀ t : RawTree, t.Sound → (op t).2.Sound}
    {t t' : Tree} {a : α} (h : t.lift op hop = (a, t')) : op t.toRawTree = (a, t'.toRawTree) := by
  cases h
  rfl

theorem lift_eq {op : RawTree → α × RawTree} {hop : ∀ t : RawTree, t.Sound → (op t).2.Sound}
    {t t' : Tree} {a : α} (h : op t.toRawTree = (a, t'.toRawTree)) : t.lift op hop = (a, t') := by
  obtain ⟨hanswer, htree⟩ := Prod.ext_iff.mp h
  exact Prod.ext hanswer (eq_of_toRawTree htree)

def makeDirectories (t : Tree) (path : String) : Except Failure Unit × Tree :=
  t.lift (·.makeDirectories path) fun _ hs => hs.makeDirectories path

def create (t : Tree) (path : String) : Except Failure FileId × Tree :=
  t.lift (·.create path) fun _ hs => hs.create path

def write (t : Tree) (id : FileId) (bytes : ByteArray) : Except Failure Unit × Tree :=
  t.lift (·.write id bytes) fun _ hs => hs.write id bytes

def rename (t : Tree) (source target : String) : Except Failure Unit × Tree :=
  t.lift (·.rename source target) fun _ hs => hs.rename source target

def remove (t : Tree) (path : String) : Except Failure Unit × Tree :=
  t.lift (·.remove path) fun _ hs => hs.remove path

def putFile (t : Tree) (path : String) (bytes : ByteArray) : Except Failure Unit × Tree :=
  t.lift (·.putFile path bytes) fun _ hs => hs.putFile path bytes

/-- The tree of one empty directory, from which relative paths start. -/
def workspace : Tree :=
  ⟨RawTree.workspace, RawTree.sound_workspace⟩

end Tree
end ScopedSettings.Files
