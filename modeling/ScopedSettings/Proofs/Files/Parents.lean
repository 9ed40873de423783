/-
What is at the directory part of a path once it has been made.

Along a plain path, which does not turn back and has no name that is too long, a
directory part is either made whole or nothing is made (`RawTree.Sound.parent_made`). What
has been made is empty at its end. So what such a path does not find it does not find
afterwards (`RawTree.Sound.missing_of_made`), and where something is read nothing is left to
be made (`RawTree.Sound.eq_of_made`).
-/
import ScopedSettings.Proofs.Files.Contents
import ScopedSettings.Proofs.Files.Names

namespace ScopedSettings.Files

/-- Is a path one that never turns back, with no name that is too long? -/
def IsPlain (path : String) : Prop :=
  ∀ n ∈ names path, n ≠ ".." ∧ n.utf8ByteSize ≤ RawTree.longestName

theorem isPlain_parent {path : String} (h : IsPlain path) : IsPlain (parent path) := by
  intro n hn
  by_cases hdot : n = "."
  · subst hdot
    decide
  · have hmem : n ∈ withoutDots (names (parent path)) :=
      List.mem_filter.mpr ⟨hn, by simpa using hdot⟩
    rw [withoutDots_names_parent] at hmem
    exact h n (List.mem_filter.mp ((List.dropLast_sublist _).mem hmem)).1

namespace RawTree

/-! ## Walking -/

variable {t t' : RawTree}

theorem walk_append {d e : DirectoryId} {before : List String} (h : t.walk d before = .ok e)
    (after : List String) : t.walk d (before ++ after) = t.walk e after := by
  induction before generalizing d with
  | nil =>
    cases h
    rfl
  | cons name rest ih =>
    obtain ⟨d', hstep, hwalk⟩ := walk_cons_eq_ok_iff.mp h
    rw [List.cons_append, walk, hstep]
    exact ih hwalk

/-- Whoever leaves a directory may look names up in it. -/
theorem search_of_walk {d e : DirectoryId} {ns : List String} (h : t.walk d ns = .ok e)
    (hopen : t.refusals.search e = none) : t.refusals.search d = none := by
  cases ns with
  | nil =>
    cases h
    exact hopen
  | cons name rest =>
    obtain ⟨d', hstep, -⟩ := walk_cons_eq_ok_iff.mp h
    exact (step_eq_ok_iff.mp hstep).1

/-- Names that stay in a directory can be left out, and put in again if names may be looked up
at the end. -/
theorem walk_withoutDots {d e : DirectoryId} {ns : List String}
    (hopen : t.refusals.search e = none) :
    t.walk d (withoutDots ns) = .ok e ↔ t.walk d ns = .ok e := by
  induction ns generalizing d with
  | nil => rfl
  | cons name rest ih =>
    by_cases hdot : name = "."
    · subst hdot
      have hskip : withoutDots ("." :: rest) = withoutDots rest := rfl
      rw [hskip, ih, walk_cons_eq_ok_iff]
      constructor
      · exact fun h => ⟨d, step_eq_ok_iff.mpr ⟨search_of_walk h hopen, .inl ⟨rfl, rfl⟩⟩, h⟩
      · rintro ⟨d', hstep, h⟩
        obtain ⟨-, ⟨-, rfl⟩ | ⟨hdots, -⟩ | ⟨hdot, -⟩⟩ := step_eq_ok_iff.mp hstep
        · exact h
        · exact absurd hdots (by decide)
        · exact absurd rfl hdot
    · have hcons : withoutDots (name :: rest) = name :: withoutDots rest := by
        simp [withoutDots, hdot]
      rw [hcons, walk_cons_eq_ok_iff, walk_cons_eq_ok_iff]
      simp only [ih]

theorem walk_congr {d e : DirectoryId} {ns ms : List String} (hopen : t.refusals.search e = none)
    (h : withoutDots ns = withoutDots ms) (hwalk : t.walk d ns = .ok e) : t.walk d ms = .ok e := by
  rw [← walk_withoutDots hopen, ← h, walk_withoutDots hopen, hwalk]

/-- What is left of names without those that stay can be found among them. -/
theorem exists_of_withoutDots_eq_concat {ns before : List String} {name : String}
    (h : withoutDots ns = before ++ [name]) :
    ∃ first rest, ns = first ++ name :: rest ∧ withoutDots first = before := by
  obtain ⟨first, last, rfl, hfirst, hlast⟩ := List.filter_eq_append_iff.mp h
  obtain ⟨dots, rest, rfl, hdots, -, -⟩ := List.filter_eq_cons_iff.mp hlast
  refine ⟨first ++ dots, rest, (List.append_assoc ..).symm, ?_⟩
  have hnil : withoutDots dots = [] := List.filter_eq_nil_iff.mpr hdots
  rw [withoutDots_append, hnil, List.append_nil]
  exact hfirst

theorem start_parent (t : RawTree) (path : String) : t.start (parent path) = t.start path := by
  unfold start
  rw [isAbsolute_parent]

/-! ## Directories that are empty at their end -/

/-- Does a path lead to a directory with nothing in it, open to who comes there? -/
def LeadsToEmpty (t : RawTree) (path : String) : Prop :=
  ∃ d, t.walk (t.start path) (names path) = .ok d ∧ (∀ name, t.node? ⟨d, name⟩ = none) ∧
    t.refusals.search d = none ∧ t.refusals.change d = none

/-- A directory that has just been made is empty. -/
theorem Sound.leadsToEmpty_makeDirectory (hs : t.Sound) {path : String}
    (h : t.makeDirectory path = (.ok (), t')) : t'.LeadsToEmpty path := by
  obtain ⟨p, hresolve, hnode, -, rfl⟩ := makeDirectory_eq_ok_iff.mp h
  have hp := hs.place_lt hresolve
  have hgrows := grows_addDirectory hp hnode
  obtain ⟨-, hleads⟩ := resolve_eq_ok_iff.mp hresolve
  cases hleads with
  | @last before last d _ hnames hwalk hlast =>
  obtain ⟨hopen, rfl, hdot, hdots, hlong⟩ := lastStep_eq_name_iff.mp hlast
  have hwalk' := hgrows.keeps.walk hs (hs.start_lt path) hwalk
  rw [← hgrows.keeps.start_eq path] at hwalk'
  refine ⟨t.directories.size, ?_, ?_, hs.search_new (Nat.le_refl _), hs.change_new (Nat.le_refl _)⟩
  · rw [hnames, walk_append hwalk', walk_cons_eq_ok_iff]
    exact ⟨_, step_eq_ok_iff.mpr
      ⟨hopen, .inr (.inr ⟨hdot, hdots, hlong, node?_addDirectory_self hp⟩)⟩, rfl⟩
  · intro name
    rw [t.node?_addDirectory_other]
    · exact node?_of_size_le (Nat.le_refl _)
    · intro heq
      cases heq
      exact Nat.lt_irrefl _ hp

/-! ## Resolving a path name by name -/

theorem resolve_of_names {path : String} (hfollow : IsFollowable path) {before : List String}
    {last : String} (hnames : names path = before ++ [last]) (t : RawTree) :
    t.resolve path = t.walk (t.start path) before >>= fun d => t.lastStep d last := by
  obtain ⟨hzero, hlong, hempty⟩ := hfollow
  have hreverse : (names path).reverse = last :: before.reverse := by simp [hnames]
  unfold resolve
  rw [if_neg (by simpa using hzero), if_neg (by omega), if_neg (by simpa using hempty), hreverse]
  dsimp only
  rw [List.reverse_reverse]
  unfold start
  cases t.walk (if isAbsolute path then root else t.here) before <;> rfl

theorem resolve_of_walk {path : String} (hfollow : IsFollowable path) {before : List String}
    {last : String} (hnames : names path = before ++ [last]) {d : DirectoryId}
    (hwalk : t.walk (t.start path) before = .ok d) : t.resolve path = t.lastStep d last := by
  rw [resolve_of_names hfollow hnames, hwalk]
  rfl

theorem resolve_of_walk_error {path : String} (hfollow : IsFollowable path)
    {before : List String} {last : String} (hnames : names path = before ++ [last]) {f : Failure}
    (hwalk : t.walk (t.start path) before = .error f) : t.resolve path = .error f := by
  rw [resolve_of_names hfollow hnames, hwalk]
  rfl

/-- Where a path finds nothing on its way, a name but its last is missing. -/
theorem walk_of_resolve_notFound {path : String} (h : t.resolve path = .error .notFound)
    (hempty : path.isEmpty = false) :
    IsFollowable path ∧ ∃ before last, names path = before ++ [last] ∧
      t.walk (t.start path) before = .error .notFound := by
  have hfollow : IsFollowable path := by
    unfold resolve at h
    split at h
    · cases h
    rename_i hzero
    split at h
    · cases h
    rename_i hlong
    exact ⟨by simpa using hzero, by omega, hempty⟩
  refine ⟨hfollow, ?_⟩
  rcases List.eq_nil_or_concat (names path) with hnames | ⟨before, last, hnames⟩
  · rw [resolve_eq_ok_iff.mpr ⟨hfollow, .start hnames⟩] at h
    cases h
  rw [List.concat_eq_append] at hnames
  refine ⟨before, last, hnames, ?_⟩
  rw [resolve_of_names hfollow hnames] at h
  cases hwalk : t.walk (t.start path) before with
  | error f =>
    rw [hwalk] at h
    cases h
    rfl
  | ok d =>
    rw [hwalk] at h
    exact absurd h (t.lastStep_ne_notFound d last)

/-- Where a directory part leads to an empty directory, so does a name more to nothing. -/
theorem LeadsToEmpty.resolve {path : String} (h : t.LeadsToEmpty (parent path))
    (hpath : IsPlain path) (hfollow : IsFollowable path) {before : List String} {last : String}
    (hnames : names path = before ++ [last]) (hdot : last ≠ ".") :
    ∃ d, t.resolve path = .ok (.name ⟨d, last⟩) ∧ t.node? ⟨d, last⟩ = none ∧
      t.refusals.change d = none := by
  obtain ⟨d, hwalk, hempty, hopen, hchange⟩ := h
  have hbefore : t.walk (t.start path) before = .ok d := by
    rw [start_parent] at hwalk
    refine walk_congr hopen ?_ hwalk
    rw [withoutDots_names_parent, hnames, withoutDots_append, withoutDots_of_ne hdot,
      List.dropLast_concat]
  obtain ⟨hdots, hlong⟩ := hpath last (by simp [hnames])
  have hlast : t.lastStep d last = .ok (.name ⟨d, last⟩) :=
    lastStep_eq_name_iff.mpr ⟨hopen, rfl, hdot, hdots, hlong⟩
  exact ⟨d, resolve_eq_ok_iff.mpr ⟨hfollow, .last hnames hbefore hlast⟩, hempty last, hchange⟩

/-! ## Making the directory part -/

theorem resolve_of_makeDirectory {path : String}
    (h : t.makeDirectory path = (.error .notFound, t')) : t.resolve path = .error .notFound := by
  unfold RawTree.makeDirectory at h
  split at h
  · cases h
    assumption
  · cases h
  · split at h <;> cases h

/-- What was missing on the way to a directory part is there once its own directory part is
made, and then it can be made itself. -/
theorem LeadsToEmpty.makeDirectory {path : String} (h : t'.LeadsToEmpty (parent (parent path)))
    (hpath : IsPlain path) (hmissing : t.resolve (parent path) = .error .notFound) :
    ∃ t'', t'.makeDirectory (parent path) = (.ok (), t'') := by
  obtain ⟨hfollow, before, last, hnames, hwalk⟩ :=
    walk_of_resolve_notFound hmissing (isEmpty_parent path)
  have hne : before ≠ [] := by
    rintro rfl
    cases hwalk
  obtain ⟨d, hresolve, hnode, hchange⟩ := h.resolve (isPlain_parent hpath) hfollow hnames
    (last_names_parent hnames hne)
  exact ⟨_, makeDirectory_eq_ok_iff.mpr ⟨_, hresolve, hnode, hchange, rfl⟩⟩

/-- The directory part of a plain path is made to its end, or nothing is made. -/
theorem Sound.makeDirectoriesFrom_parent (hs : t.Sound) {path : String} (hpath : IsPlain path)
    (fuel : Nat) :
    let made := t.makeDirectoriesFrom (parent path) fuel
    made.2 = t ∨ made.1 = .ok () ∧ made.2.LeadsToEmpty (parent path) := by
  induction fuel generalizing path with
  | zero => exact .inl rfl
  | succ fuel ih =>
    unfold RawTree.makeDirectoriesFrom
    dsimp only
    split
    · rename_i t₁ hmade
      exact .inr ⟨rfl, hs.leadsToEmpty_makeDirectory hmade⟩
    · rename_i t₁ hmade
      obtain rfl := eq_of_makeDirectory_error hmade
      have hmissing := resolve_of_makeDirectory hmade
      have hparent := ih (isPlain_parent hpath)
      have hsound := hs.makeDirectoriesFrom (parent (parent path)) fuel
      split
      · rename_i f t₂ hmade₂
        rw [hmade₂] at hparent
        refine .inl (hparent.resolve_right ?_)
        rintro ⟨hok, -⟩
        cases hok
      · rename_i t₂ hmade₂
        rw [hmade₂] at hparent hsound
        rcases hparent with rfl | ⟨-, hempty⟩
        · -- nothing has been made, so it goes as the first time
          rw [hmade]
          dsimp only
          split <;> exact .inl rfl
        · obtain ⟨t₃, hmade₃⟩ := hempty.makeDirectory hpath hmissing
          rw [hmade₃]
          exact .inr ⟨rfl, hsound.leadsToEmpty_makeDirectory hmade₃⟩
    · rename_i f t₁ _ hmade
      obtain rfl := eq_of_makeDirectory_error hmade
      split <;> exact .inl rfl

theorem Sound.parent_made (hs : t.Sound) {path : String} (hpath : IsPlain path)
    {answer : Except Failure Unit} (h : t.makeDirectories (parent path) = (answer, t')) :
    t' = t ∨ answer = .ok () ∧ t'.LeadsToEmpty (parent path) := by
  have hmade := hs.makeDirectoriesFrom_parent hpath ((parent path).length + 1)
  unfold RawTree.makeDirectories at h
  rw [h] at hmade
  exact hmade

theorem readBytes_of_resolve_error {path : String} {f : Failure} (h : t.resolve path = .error f) :
    t.readBytes path = .error f := by
  unfold RawTree.readBytes
  rw [h]

/-- Without names one gets no further than where one starts. -/
theorem walk_of_withoutDots_eq_nil {d : DirectoryId} {ns : List String} (h : withoutDots ns = []) :
    t.walk d ns = .ok d ∨ ∃ e, t.walk d ns = .error (.refused e) := by
  induction ns with
  | nil => exact .inl rfl
  | cons name rest ih =>
    by_cases hdot : name = "."
    · subst hdot
      cases hopen : t.refusals.search d with
      | some e => exact .inr ⟨e, by simp [walk, step, hopen]⟩
      | none =>
        have hskip : t.walk d ("." :: rest) = t.walk d rest := by simp [walk, step, hopen]
        rw [hskip]
        exact ih h
    · simp [withoutDots, hdot] at h

/-- A path without names leads to the directory it starts from, so that nothing is read or
missed along it. -/
theorem withoutDots_ne_nil_of_readBytes {path : String} (hfollow : IsFollowable path)
    (hread : (∃ bytes, t.readBytes path = .ok bytes) ∨ t.readBytes path = .error .notFound) :
    withoutDots (names path) ≠ [] := by
  intro h
  have hresolve : (∃ d, t.resolve path = .ok (.directory d)) ∨
      ∃ e, t.resolve path = .error (.refused e) := by
    rcases List.eq_nil_or_concat (names path) with hnames | ⟨before, last, hnames⟩
    · exact .inl ⟨_, resolve_eq_ok_iff.mpr ⟨hfollow, .start hnames⟩⟩
    rw [List.concat_eq_append] at hnames
    rw [hnames, withoutDots_append, List.append_eq_nil_iff] at h
    obtain ⟨hbefore, hlast⟩ := h
    have hdot : last = "." := by
      by_cases hdot : last = "."
      · exact hdot
      · rw [withoutDots_of_ne hdot] at hlast
        cases hlast
    subst hdot
    rcases t.walk_of_withoutDots_eq_nil (d := t.start path) hbefore with hwalk | ⟨e, hwalk⟩
    · rw [resolve_of_walk hfollow hnames hwalk]
      unfold lastStep
      cases t.refusals.search (t.start path) with
      | some e => exact .inr ⟨e, rfl⟩
      | none => exact .inl ⟨_, rfl⟩
    · exact .inr ⟨e, resolve_of_walk_error hfollow hnames hwalk⟩
  unfold RawTree.readBytes at hread
  rcases hresolve with ⟨d, hresolve⟩ | ⟨e, hresolve⟩
  · rw [hresolve] at hread
    cases hlist : t.refusals.list d <;> simp [at?, hlist] at hread
  · rw [hresolve] at hread
    simp at hread

/-- Where a directory part leads to an empty directory, the path finds nothing. -/
theorem LeadsToEmpty.readBytes {path : String} (h : t.LeadsToEmpty (parent path))
    (hpath : IsPlain path) (hfollow : IsFollowable path) (hne : withoutDots (names path) ≠ []) :
    t.readBytes path = .error .notFound := by
  rcases List.eq_nil_or_concat (names path) with hnames | ⟨before, last, hnames⟩
  · rw [hnames] at hne
    exact absurd rfl hne
  rw [List.concat_eq_append] at hnames
  by_cases hdot : last = "."
  · -- the name that is missing stands before the one that stays where it is
    subst hdot
    have hbefore : withoutDots (names path) = withoutDots before := by
      rw [hnames, withoutDots_append]
      exact List.append_nil _
    rw [hbefore] at hne
    obtain ⟨d, hwalk, hempty, hopen, -⟩ := h
    have hconcat := (List.dropLast_concat_getLast hne).symm
    have hmem := List.mem_filter.mp (List.getLast_mem hne)
    generalize (withoutDots before).getLast hne = name at hconcat hmem
    obtain ⟨first, rest, rfl, hfirst⟩ := exists_of_withoutDots_eq_concat hconcat
    rw [start_parent] at hwalk
    have hwalk' : t.walk (t.start path) first = .ok d := by
      refine walk_congr hopen ?_ hwalk
      rw [withoutDots_names_parent, hbefore, hfirst]
    obtain ⟨hdots, hlong⟩ := hpath name (by simp [hnames])
    have hmissing : t.walk (t.start path) (first ++ name :: rest) = .error .notFound := by
      rw [walk_append hwalk', walk, step_eq_notFound_iff.mpr
        ⟨hopen, by simpa using hmem.2, hdots, hlong, hempty name⟩]
    exact readBytes_of_resolve_error (resolve_of_walk_error hfollow hnames hmissing)
  · obtain ⟨d, hresolve, hnode, -⟩ := h.resolve hpath hfollow hnames hdot
    have hat : t.at? (.name ⟨d, last⟩) = none := hnode
    unfold RawTree.readBytes
    rw [hresolve]
    simp only [hat]

theorem isFollowable_of_missing {path : String} (h : t.readBytes path = .error .notFound)
    (hempty : path.isEmpty = false) : IsFollowable path := by
  cases hresolve : t.resolve path with
  | ok target => exact (resolve_eq_ok_iff.mp hresolve).1
  | error f =>
    rw [readBytes_of_resolve_error hresolve] at h
    cases h
    exact (walk_of_resolve_notFound hresolve hempty).1

/-- What a plain path does not find it does not find when its directory part has been made. -/
theorem Sound.missing_of_made (hs : t.Sound) {path : String} (hpath : IsPlain path)
    {answer : Except Failure Unit} (h : t.makeDirectories (parent path) = (answer, t'))
    (hread : t.readBytes path = .error .notFound) : t'.readBytes path = .error .notFound := by
  rcases hs.parent_made hpath h with rfl | ⟨-, hempty⟩
  · exact hread
  cases hpath' : path.isEmpty with
  | true =>
    obtain rfl : path = "" := by simpa using hpath'
    rfl
  | false =>
    have hfollow := isFollowable_of_missing hread hpath'
    exact hempty.readBytes hpath hfollow (withoutDots_ne_nil_of_readBytes hfollow (.inr hread))

/-- The directory part of a path along which something is read is there. -/
theorem Sound.eq_of_made (hs : t.Sound) {path : String} (hpath : IsPlain path)
    {answer : Except Failure Unit} (h : t.makeDirectories (parent path) = (answer, t'))
    {bytes : ByteArray} (hread : t.readBytes path = .ok bytes) : t' = t := by
  rcases hs.parent_made hpath h with rfl | ⟨-, hempty⟩
  · rfl
  obtain ⟨p, f, hresolve, -⟩ := readBytes_eq_ok_iff.mp hread
  have hfollow := (resolve_eq_ok_iff.mp hresolve).1
  have hmissing := hempty.readBytes hpath hfollow
    (withoutDots_ne_nil_of_readBytes hfollow (.inl ⟨bytes, hread⟩))
  rw [(hs.made h).1.readBytes hs hread] at hmissing
  cases hmissing

/-! ## Names that are not too long -/

theorem le_of_walk {d e : DirectoryId} {ns : List String} (h : t.walk d ns = .ok e) :
    ∀ n ∈ ns, n.utf8ByteSize ≤ longestName := by
  induction ns generalizing d with
  | nil => exact fun n hn => absurd hn List.not_mem_nil
  | cons name rest ih =>
    obtain ⟨d', hstep, hwalk⟩ := walk_cons_eq_ok_iff.mp h
    refine List.forall_mem_cons.mpr ⟨?_, ih hwalk⟩
    obtain ⟨-, ⟨rfl, -⟩ | ⟨rfl, -⟩ | ⟨-, -, hlong, -⟩⟩ := step_eq_ok_iff.mp hstep
    · decide
    · decide
    · exact hlong

/-- No name is too long where something is read. -/
theorem le_of_readBytes {path : String} {bytes : ByteArray} (h : t.readBytes path = .ok bytes) :
    ∀ n ∈ names path, n.utf8ByteSize ≤ longestName := by
  obtain ⟨p, f, hresolve, -⟩ := readBytes_eq_ok_iff.mp h
  obtain ⟨-, hleads⟩ := resolve_eq_ok_iff.mp hresolve
  cases hleads with
  | last hnames hwalk hlast =>
    obtain ⟨-, -, -, -, hlong⟩ := lastStep_eq_name_iff.mp hlast
    rw [hnames]
    intro n hn
    rcases List.mem_append.mp hn with hn | hn
    · exact le_of_walk hwalk n hn
    · rw [List.mem_singleton.mp hn]
      exact hlong

end RawTree
end ScopedSettings.Files
