/-
The temporary sibling of a path lies in the directory of what the path names, under
another name.

A path that names a file ends in that name, but for slashes and names that stay in a
directory (`names_of_split?`); its sibling ends in another name at the same place
(`RawTree.beside_of_resolve`). So what stands under the sibling's name is not what the path
reads, which is given by the name of the file alone (`RawTree.Beside.readBytes_eq`).
-/
import ScopedSettings.Proofs.Files.Parents

namespace ScopedSettings.Files

/-! ## The name of a file -/

/-- What ends a path are names that stay in a directory. -/
theorem namesIn_dropEnding (cs : List Char) :
    ∃ k, namesIn cs.reverse = namesIn (dropEnding cs).reverse ++ List.replicate k "." := by
  fun_induction dropEnding cs with
  | case1 rest ih =>
    obtain ⟨k, hk⟩ := ih
    refine ⟨k, ?_⟩
    rw [List.reverse_cons, namesIn_append, namesIn_nil, List.append_nil, hk]
  | case2 rest ih =>
    obtain ⟨k, hk⟩ := ih
    have hdot : namesIn ['.'] = ["."] := rfl
    refine ⟨k + 1, ?_⟩
    rw [List.reverse_cons, List.reverse_cons, List.append_assoc, List.singleton_append,
      namesIn_append, hdot, hk, List.replicate_succ', List.append_assoc]
  | case3 cs => exact ⟨0, (List.append_nil _).symm⟩

/-- From the first separator on there is nothing, or the separator and what follows it. -/
theorem dropWhile_cases (separator : Char) (cs : List Char) :
    cs.dropWhile (· != separator) = [] ∨
      ∃ rest, cs.dropWhile (· != separator) = separator :: rest := by
  cases hdrop : cs.dropWhile (· != separator) with
  | nil => exact .inl rfl
  | cons c rest =>
    have hne : cs.dropWhile (· != separator) ≠ [] := by simp [hdrop]
    have hc := List.head_dropWhile_not (· != separator) hne
    simp only [hdrop, List.head_cons, bne_eq_false_iff_eq] at hc
    exact .inr ⟨rest, by rw [hc]⟩

theorem not_mem_takeWhile (separator : Char) (cs : List Char) :
    separator ∉ cs.takeWhile (· != separator) := by
  intro h
  have hall := List.all_takeWhile (l := cs) (p := (· != separator))
  rw [List.all_eq_true] at hall
  simpa using hall separator h

/-- A name put after the last slash of a text is the last of its names. -/
theorem namesIn_put_name (cs : List Char) {name : List Char} (hslash : '/' ∉ name)
    (hne : name ≠ []) :
    namesIn ((cs.dropWhile (· != '/')).reverse ++ name) =
      namesIn (cs.dropWhile (· != '/')).reverse ++ [String.ofList name] := by
  rcases dropWhile_cases '/' cs with hdrop | ⟨rest, hdrop⟩
  · rw [hdrop]
    exact namesIn_of_not_mem hslash hne
  · rw [hdrop, List.reverse_cons, List.append_assoc, List.singleton_append, namesIn_append,
      namesIn_append, namesIn_nil, List.append_nil, namesIn_of_not_mem hslash hne]

/-- The file name of a path, reversed. -/
def nameText (path : String) : List Char :=
  (dropEnding path.toList.reverse).takeWhile (· != '/')

/-- What stands before the file name of a path, reversed. -/
def beforeText (path : String) : List Char :=
  (dropEnding path.toList.reverse).dropWhile (· != '/')

theorem dropEnding_eq_cut (path : String) :
    dropEnding path.toList.reverse = nameText path ++ beforeText path :=
  List.takeWhile_append_dropWhile.symm

theorem not_mem_nameText (path : String) : '/' ∉ (nameText path).reverse := by
  rw [List.mem_reverse]
  exact not_mem_takeWhile '/' _

/-- The names of a path without its ending, the name of the file the last. -/
theorem namesIn_kept {path : String} (hne : nameText path ≠ []) :
    namesIn (dropEnding path.toList.reverse).reverse =
      namesIn (beforeText path).reverse ++ [String.ofList (nameText path).reverse] := by
  rw [dropEnding_eq_cut, List.reverse_append]
  exact namesIn_put_name _ (not_mem_nameText path) (mt List.reverse_eq_nil_iff.mp hne)

theorem split?_eq_some {path : String} {s : Split} (h : split? path = some s) :
    nameText path ≠ [] ∧ s.name = String.ofList (nameText path).reverse ∧
      s.before = String.ofList (beforeText path).reverse ∧ s.name ≠ "." ∧ s.name ≠ ".." := by
  unfold split? at h
  dsimp only at h
  split at h
  · cases h
  rename_i hname
  rw [not_or, not_or] at hname
  obtain ⟨hempty, hdot, hdots⟩ := hname
  cases h
  exact ⟨mt List.reverse_eq_nil_iff.mpr hempty, rfl, rfl, ofList_ne hdot, ofList_ne hdots⟩

theorem names_before {path : String} {s : Split} (h : split? path = some s) :
    names s.before = namesIn (beforeText path).reverse := by
  obtain ⟨-, -, hbefore, -⟩ := split?_eq_some h
  rw [hbefore, names_ofList]

/-- A name without slashes put in place of the file name of a path is the last name then. -/
theorem names_put_name {path : String} {s : Split} (h : split? path = some s) {name : String}
    (hslash : '/' ∉ name.toList) (hne : name ≠ "") :
    names (s.before ++ name) = names s.before ++ [name] := by
  obtain ⟨-, -, hbefore, -⟩ := split?_eq_some h
  have hlist : name.toList ≠ [] := fun heq => hne (String.toList_eq_nil_iff.mp heq)
  rw [names_before h, names_eq, String.toList_append, hbefore, String.toList_ofList]
  unfold beforeText
  rw [namesIn_put_name _ hslash hlist, String.ofList_toList]

/-- The last name of a path is that of its file, but for names that stay in a directory. -/
theorem names_of_split? {path : String} {s : Split} (h : split? path = some s) :
    ∃ k, names path = names s.before ++ s.name :: List.replicate k "." := by
  obtain ⟨hne, hname, -, -, -⟩ := split?_eq_some h
  obtain ⟨k, hk⟩ := namesIn_dropEnding path.toList.reverse
  refine ⟨k, ?_⟩
  rw [List.reverse_reverse, namesIn_kept hne] at hk
  rw [names_eq, hk, names_before h, hname, List.append_assoc, List.singleton_append]

/-- A text without slashes starts no path at the root. -/
theorem head?_of_not_mem {cs : List Char} (h : '/' ∉ cs) : (cs.head? == some '/') = false := by
  cases cs with
  | nil => rfl
  | cons c cs =>
    have hc : c ≠ '/' := fun heq => h (heq ▸ List.mem_cons_self)
    simpa using hc

theorem isAbsolute_put_name {path : String} {s : Split} (h : split? path = some s) {name : String}
    (hslash : '/' ∉ name.toList) : isAbsolute (s.before ++ name) = isAbsolute path := by
  obtain ⟨hne, -, hbefore, -⟩ := split?_eq_some h
  obtain ⟨ending, hending⟩ := dropEnding_suffix path.toList.reverse
  have hpath : path.toList = (beforeText path).reverse ++ ((nameText path).reverse ++
      ending.reverse) := by
    rw [← List.reverse_reverse path.toList, ← hending, List.reverse_append, dropEnding_eq_cut,
      List.reverse_append, List.append_assoc]
  unfold isAbsolute
  rw [String.toList_append, hbefore, String.toList_ofList, hpath]
  rcases List.eq_nil_or_concat (beforeText path) with hnil | ⟨rest, c, hcons⟩
  · have hname := not_mem_nameText path
    obtain ⟨c, rest, hcons⟩ := List.exists_cons_of_ne_nil (mt List.reverse_eq_nil_iff.mp hne)
    rw [hcons] at hname
    rw [hnil, hcons, List.reverse_nil, List.nil_append, List.nil_append, head?_of_not_mem hslash]
    exact (head?_of_not_mem hname).symm
  · rw [hcons, List.concat_eq_append, List.reverse_append]
    rfl

/-- No dots were put after a list that ends in something else. -/
theorem eq_zero_of_append_replicate {before rest : List String} {last : String} {k : Nat}
    (h : before ++ [last] = rest ++ List.replicate k ".") (hdot : last ≠ ".") : k = 0 := by
  cases k with
  | zero => rfl
  | succ k =>
    rw [List.replicate_succ', ← List.append_assoc] at h
    have hlast := (List.append_inj' h rfl).2
    simp only [List.cons.injEq, and_true] at hlast
    exact absurd hlast hdot

/-- A path that keeps a name without its ending has a file name. -/
theorem nameText_ne_nil {path : String}
    (h : namesIn (dropEnding path.toList.reverse).reverse ≠ []) : nameText path ≠ [] := by
  intro hnil
  have hcut := dropEnding_eq_cut path
  rw [hnil, List.nil_append] at hcut
  rcases dropWhile_cases '/' (dropEnding path.toList.reverse) with hdrop | ⟨rest, hdrop⟩
  · have hempty : dropEnding path.toList.reverse = [] := hcut.trans hdrop
    rw [hempty] at h
    exact h namesIn_nil
  · have hkept : dropEnding path.toList.reverse = [] ++ '/' :: rest := hcut.trans hdrop
    exact (name_of_dropEnding hkept).1 rfl

/-- A path whose last name leads somewhere else names a file. -/
theorem split?_of_names {path : String} {before : List String} {last : String}
    (h : names path = before ++ [last]) (hdot : last ≠ ".") (hdots : last ≠ "..") :
    ∃ s, split? path = some s := by
  obtain ⟨k, hk⟩ := namesIn_dropEnding path.toList.reverse
  rw [List.reverse_reverse, ← names_eq, h] at hk
  obtain rfl : k = 0 := eq_zero_of_append_replicate hk hdot
  rw [List.replicate_zero, List.append_nil] at hk
  have hne : nameText path ≠ [] := nameText_ne_nil (by simp [← hk])
  rw [namesIn_kept hne] at hk
  have hlast : last = String.ofList (nameText path).reverse := by
    simpa using (List.append_inj' hk rfl).2
  have hdot' : (nameText path).reverse ≠ ['.'] := by
    intro heq
    rw [heq] at hlast
    exact hdot hlast
  have hdots' : (nameText path).reverse ≠ ['.', '.'] := by
    intro heq
    rw [heq] at hlast
    exact hdots hlast
  unfold split?
  dsimp only
  rw [if_neg]
  · exact ⟨_, rfl⟩
  · rw [not_or, not_or]
    exact ⟨mt List.reverse_eq_nil_iff.mp hne, hdot', hdots'⟩

/-- Nothing ends a path whose last name leads somewhere else. -/
theorem eq_of_names {path : String} {s : Split} (h : split? path = some s) {before : List String}
    {last : String} (hnames : names path = before ++ [last]) (hdot : last ≠ ".") :
    names s.before = before ∧ s.name = last := by
  obtain ⟨k, hk⟩ := names_of_split? h
  rw [hnames, List.append_cons (names s.before)] at hk
  obtain rfl : k = 0 := eq_zero_of_append_replicate hk hdot
  rw [List.replicate_zero, List.append_nil] at hk
  obtain ⟨hbefore, hlast⟩ := List.append_inj' hk rfl
  exact ⟨hbefore.symm, by simpa using hlast.symm⟩

/-! ## The name of the sibling -/

theorem splitExtension_cases (name : String) :
    splitExtension name = (name, none) ∨
      ∃ stem extension, splitExtension name = (String.ofList stem, some (String.ofList extension)) ∧
        name.toList = stem ++ '.' :: extension ∧ '.' ∉ extension := by
  have hcut := List.takeWhile_append_dropWhile (p := (· != '.')) (l := name.toList.reverse)
  have hpoint := not_mem_takeWhile '.' name.toList.reverse
  unfold splitExtension
  dsimp only
  generalize name.toList.reverse.takeWhile (· != '.') = extension at hcut hpoint ⊢
  rcases dropWhile_cases '.' name.toList.reverse with hdrop | ⟨stem, hdrop⟩
  · rw [hdrop]
    exact .inl rfl
  · rw [hdrop] at hcut ⊢
    cases stem with
    | nil => exact .inl rfl
    | cons c stem =>
      refine .inr ⟨(c :: stem).reverse, extension.reverse, rfl, ?_, by simpa using hpoint⟩
      rw [← List.reverse_reverse name.toList, ← hcut]
      simp

/-- The ending of the sibling is no extension: it has two points. -/
theorem append_temporaryEnding_ne {name : String} {stem extension : List Char}
    (hname : name.toList = stem ++ '.' :: extension) (hpoint : '.' ∉ extension) :
    String.ofList stem ++ temporaryEnding ≠ name := by
  intro heq
  have hlists := congrArg String.toList heq
  have hending : temporaryEnding.toList = '.' :: ['j', 's', 'o', 'n', '.', 't', 'm', 'p'] := by
    decide
  rw [String.toList_append, String.toList_ofList, hname, hending] at hlists
  have hextension := List.append_cancel_left hlists
  simp only [List.cons.injEq, true_and] at hextension
  exact hpoint (hextension ▸ by simp)

/-- The sibling leads to a directory, or it has another name than the file. -/
theorem temporarySibling_cases {path : String} {s : Split} (h : split? path = some s) :
    temporarySibling path = s.before ++ ".." ∨
      ∃ name, temporarySibling path = s.before ++ name ∧ '/' ∉ name.toList ∧ name ≠ "" ∧
        name ≠ s.name := by
  obtain ⟨-, hname, -⟩ := split?_eq_some h
  have hslash : '/' ∉ s.name.toList := by
    rw [hname, String.toList_ofList]
    exact not_mem_nameText path
  have hending : '/' ∉ temporaryEnding.toList := by decide
  have hlong (stem : String) : stem ++ temporaryEnding ≠ "" := by
    intro heq
    have hlists := congrArg (List.length ∘ String.toList) heq
    simp [temporaryEnding] at hlists
  unfold temporarySibling
  rw [h]
  dsimp only
  rcases splitExtension_cases s.name with heq | ⟨stem, extension, heq, hparts, hpoint⟩
  · rw [heq]
    split
    · rename_i hnone
      exact absurd (Prod.mk.inj hnone).2 (by simp)
    · rename_i hstem
      obtain ⟨rfl, -⟩ := Prod.mk.inj hstem
      refine .inr ⟨s.name ++ temporaryEnding, String.append_assoc, ?_, hlong _, ?_⟩
      · rw [String.toList_append, List.mem_append, not_or]
        exact ⟨hslash, hending⟩
      · intro hself
        have hlists := congrArg (List.length ∘ String.toList) hself
        simp [temporaryEnding] at hlists
  · have hother : ∃ name, s.before ++ String.ofList stem ++ temporaryEnding = s.before ++ name ∧
        '/' ∉ name.toList ∧ name ≠ "" ∧ name ≠ s.name := by
      refine ⟨String.ofList stem ++ temporaryEnding, String.append_assoc, ?_, hlong _,
        append_temporaryEnding_ne hparts hpoint⟩
      rw [hparts, List.mem_append, not_or] at hslash
      rw [String.toList_append, String.toList_ofList, List.mem_append, not_or]
      exact ⟨hslash.1, hending⟩
    rw [heq]
    split
    · rename_i hstem
      rw [(Prod.mk.inj hstem).1] at hother
      by_cases hafter : s.after = ""
      · rw [if_pos hafter]
        exact .inl rfl
      · rw [if_neg hafter]
        exact .inr hother
    · rename_i hstem
      rw [(Prod.mk.inj hstem).1] at hother
      exact .inr hother

theorem names_temporarySibling {path : String} {s : Split} (h : split? path = some s)
    {before : List String} {last : String}
    (hnames : names (temporarySibling path) = before ++ [last]) (hdots : last ≠ "..") :
    names s.before = before ∧ last ≠ s.name ∧
      isAbsolute (temporarySibling path) = isAbsolute path := by
  rcases temporarySibling_cases h with heq | ⟨name, heq, hslash, hne, hother⟩
  · rw [heq, names_put_name h (by decide) (by decide)] at hnames
    have hlast := (List.append_inj' hnames rfl).2
    simp only [List.cons.injEq, and_true] at hlast
    exact absurd hlast.symm hdots
  · rw [heq, names_put_name h hslash hne] at hnames
    obtain ⟨hbefore, hlast⟩ := List.append_inj' hnames rfl
    simp only [List.cons.injEq, and_true] at hlast
    rw [heq, isAbsolute_put_name h hslash]
    exact ⟨hbefore, hlast ▸ hother, rfl⟩

/-! ## Beside a file -/

namespace RawTree

/-- Does a path name a file in the given directory? -/
structure Beside (t : RawTree) (path : String) (s : Split) (d : DirectoryId) : Prop where
  split?_eq : split? path = some s
  walk_eq : t.walk (t.start path) (names s.before) = .ok d

variable {t t' : RawTree} {path : String} {s : Split} {d : DirectoryId}

theorem Beside.of_keeps (h : t.Beside path s d) (hs : t.Sound) (hkeeps : Keeps t t') :
    t'.Beside path s d := by
  refine ⟨h.split?_eq, ?_⟩
  rw [hkeeps.start_eq path]
  exact hkeeps.walk hs (hs.start_lt path) h.walk_eq

/-- A path that leads to a name leads to that of its file. -/
theorem Beside.place_eq (h : t.Beside path s d) {p : Place}
    (hresolve : t.resolve path = .ok (.name p)) : p = ⟨d, s.name⟩ := by
  obtain ⟨-, hleads⟩ := resolve_eq_ok_iff.mp hresolve
  cases hleads with
  | last hnames hwalk hlast =>
    obtain ⟨-, rfl, hdot, -, -⟩ := lastStep_eq_name_iff.mp hlast
    obtain ⟨rfl, rfl⟩ := eq_of_names h.split?_eq hnames hdot
    rw [h.walk_eq] at hwalk
    cases hwalk
    rfl

/-- A path that leads to a name leads to that of a file. -/
theorem beside_of_place {p : Place} (h : t.resolve path = .ok (.name p)) :
    ∃ s, t.Beside path s p.directory := by
  obtain ⟨-, hleads⟩ := resolve_eq_ok_iff.mp h
  cases hleads with
  | last hnames hwalk hlast =>
  obtain ⟨-, rfl, hdot, hdots, -⟩ := lastStep_eq_name_iff.mp hlast
  obtain ⟨s, hsplit⟩ := split?_of_names hnames hdot hdots
  obtain ⟨rfl, -⟩ := eq_of_names hsplit hnames hdot
  exact ⟨s, hsplit, hwalk⟩

/-- A path without a file name is its own sibling, and leads to no name. -/
theorem split?_of_resolve_sibling {q : Place}
    (h : t.resolve (temporarySibling path) = .ok (.name q)) : ∃ s, split? path = some s := by
  cases hsplit : split? path with
  | none =>
    have hself : temporarySibling path = path := by
      unfold temporarySibling
      rw [hsplit]
    rw [hself] at h
    obtain ⟨s, hbeside⟩ := beside_of_place h
    rw [hbeside.split?_eq] at hsplit
    cases hsplit
  | some s => exact ⟨s, rfl⟩

/-- A sibling that leads to a name lies beside the file, and has another name. -/
theorem beside_of_resolve {q : Place} (h : t.resolve (temporarySibling path) = .ok (.name q)) :
    ∃ s, t.Beside path s q.directory ∧ q.name ≠ s.name := by
  obtain ⟨s, hsplit⟩ := split?_of_resolve_sibling h
  obtain ⟨-, hleads⟩ := resolve_eq_ok_iff.mp h
  cases hleads with
  | last hnames hwalk hlast =>
  obtain ⟨-, rfl, -, hdots, -⟩ := lastStep_eq_name_iff.mp hlast
  obtain ⟨rfl, hother, habsolute⟩ := names_temporarySibling hsplit hnames hdots
  unfold start at hwalk
  rw [habsolute] at hwalk
  exact ⟨s, ⟨hsplit, hwalk⟩, hother⟩

/-- If a sibling leads to a name in one tree, it does in every tree in which the file's
directory is there and can be looked in. -/
theorem Beside.resolve_sibling (h : t.Beside path s d) {q : Place}
    (hopen : t.refusals.search d = none)
    (hq : t'.resolve (temporarySibling path) = .ok (.name q)) :
    t.resolve (temporarySibling path) = .ok (.name ⟨d, q.name⟩) := by
  obtain ⟨hfollow, hleads⟩ := resolve_eq_ok_iff.mp hq
  cases hleads with
  | last hnames hwalk hlast =>
  obtain ⟨-, rfl, hdot, hdots, hlong⟩ := lastStep_eq_name_iff.mp hlast
  obtain ⟨rfl, -, habsolute⟩ := names_temporarySibling h.split?_eq hnames hdots
  have hwalk' := h.walk_eq
  unfold start at hwalk'
  rw [← habsolute] at hwalk'
  rw [resolve_of_walk hfollow hnames hwalk']
  exact lastStep_eq_name_iff.mpr ⟨hopen, rfl, hdot, hdots, hlong⟩

/-- Names that stay in a directory stay there or nowhere, whatever the tree holds. -/
theorem walk_dots_eq (hrefusals : t'.refusals = t.refusals) (d : DirectoryId) (k : Nat) :
    t'.walk d (List.replicate k ".") = t.walk d (List.replicate k ".") := by
  induction k with
  | zero => rfl
  | succ k ih =>
    rw [List.replicate_succ, walk, walk]
    unfold step
    rw [hrefusals]
    cases t.refusals.search d with
    | some f => rfl
    | none => exact ih

/-- A path that cannot be followed fails alike in all trees. -/
theorem resolve_of_not_followable (h : ¬ IsFollowable path) (t t' : RawTree) :
    t'.resolve path = t.resolve path := by
  unfold RawTree.resolve
  by_cases hzero : path.toList.contains '\x00' = true
  · rw [if_pos hzero, if_pos hzero]
  rw [if_neg hzero, if_neg hzero]
  by_cases hlong : path.utf8ByteSize > longestPath
  · rw [if_pos hlong, if_pos hlong]
  rw [if_neg hlong, if_neg hlong]
  by_cases hempty : path.isEmpty = true
  · rw [if_pos hempty, if_pos hempty]
  exact absurd ⟨by simpa using hzero, by omega, by simpa using hempty⟩ h

/-- Where a path leads is given by the name of its file. -/
theorem Beside.resolve_eq (h : t.Beside path s d) (h' : t'.Beside path s d)
    (hrefusals : t'.refusals = t.refusals) (hnode : t'.node? ⟨d, s.name⟩ = t.node? ⟨d, s.name⟩) :
    t'.resolve path = t.resolve path := by
  by_cases hfollow : IsFollowable path
  · obtain ⟨-, -, -, hdot, hdots⟩ := split?_eq_some h.split?_eq
    obtain ⟨k, hnames⟩ := names_of_split? h.split?_eq
    cases k with
    | zero =>
      rw [resolve_of_walk hfollow hnames h.walk_eq, resolve_of_walk hfollow hnames h'.walk_eq]
      unfold lastStep
      simp only [hdot, hdots, beq_iff_eq, if_false, hrefusals]
    | succ k =>
      -- the name of the file is followed as one on the way
      rw [List.replicate_succ', ← List.cons_append, ← List.append_assoc] at hnames
      have hstep : t'.step d s.name = t.step d s.name := by
        unfold step
        simp only [hdot, hdots, beq_iff_eq, if_false, hrefusals, hnode]
      have hlast (e : DirectoryId) : t'.lastStep e "." = t.lastStep e "." := by
        unfold lastStep
        rw [hrefusals]
        rfl
      rw [resolve_of_names hfollow hnames, resolve_of_names hfollow hnames,
        walk_append h.walk_eq, walk_append h'.walk_eq, walk, walk, hstep]
      simp only [walk_dots_eq hrefusals, hlast]
  · exact resolve_of_not_followable hfollow t t'

/-- What a path reads is given by what stands under the name of its file, and by what that
holds. -/
theorem Beside.readBytes_eq (h : t.Beside path s d) (h' : t'.Beside path s d)
    (hrefusals : t'.refusals = t.refusals) (hnode : t'.node? ⟨d, s.name⟩ = t.node? ⟨d, s.name⟩)
    (hcontent : ∀ p f, t.resolve path = .ok (.name p) → t.node? p = some (.file f) →
      t'.content f = t.content f) : t'.readBytes path = t.readBytes path := by
  unfold RawTree.readBytes
  rw [h.resolve_eq h' hrefusals hnode, hrefusals]
  cases hresolve : t.resolve path with
  | error f => rfl
  | ok target =>
    cases target with
    | directory e => rfl
    | name p =>
      have hp := h.place_eq hresolve
      have hat : t'.at? (.name p) = t.at? (.name p) := by
        subst hp
        exact hnode
      dsimp only
      rw [hat]
      split
      · rfl
      · rfl
      · rename_i f hfile
        rw [hcontent p f hresolve hfile]

/-! ## Changes under the sibling's name -/

/-- What the name of the file stands for is not touched by a change under the sibling's. -/
theorem place_ne_of_resolve {p q : Place} (hp : t.resolve path = .ok (.name p))
    (hq : t.resolve (temporarySibling path) = .ok (.name q)) : p ≠ q := by
  obtain ⟨s, hbeside, hne⟩ := beside_of_resolve hq
  intro heq
  rw [hbeside.place_eq hp] at heq
  exact hne (congrArg Place.name heq).symm

/-- A change under the sibling's name is not read along the path, if the record's file keeps
what it holds. -/
theorem ChangesFile.readBytes_of_sibling {q : Place} (h : ChangesFile t t' q) (hs : t.Sound)
    (hq : t.resolve (temporarySibling path) = .ok (.name q))
    (hcontent : ∀ p f, t.resolve path = .ok (.name p) → t.node? p = some (.file f) →
      t'.content f = t.content f) : t'.readBytes path = t.readBytes path := by
  obtain ⟨s, hbeside, hne⟩ := beside_of_resolve hq
  have hplace : (⟨q.directory, s.name⟩ : Place) ≠ q :=
    fun heq => hne (congrArg Place.name heq).symm
  exact hbeside.readBytes_eq (hbeside.of_keeps hs h.keeps) h.refusals_eq (h.node?_eq hplace)
    hcontent

/-- Is the file that a path leads to another than the one under its sibling's name? -/
def Apart (t : RawTree) (path : String) : Prop :=
  ∀ p q f, t.resolve path = .ok (.name p) → t.resolve (temporarySibling path) = .ok (.name q) →
    t.node? p = some (.file f) → t.node? q ≠ some (.file f)

theorem Apart.of_changes {q : Place} (h : ChangesFile t t' q) (hs : t.Sound) (hs' : t'.Sound)
    (hq : t.resolve (temporarySibling path) = .ok (.name q))
    (hfile : ∀ p f, t.resolve path = .ok (.name p) → t.node? p = some (.file f) →
      t'.node? q ≠ some (.file f)) : t'.Apart path := by
  intro p q' f hp hq' hnode
  have hp' := h.symm.keeps.resolve hs' hp
  rw [h.keeps.resolve hs hq] at hq'
  cases hq'
  rw [h.node?_eq (place_ne_of_resolve hp' hq)] at hnode
  exact hfile p f hp' hnode

/-- Where the path has led to a name before directories were made, so has its sibling if it
does afterwards. -/
theorem Grows.resolve_sibling (hgrows : Grows t t') (hs : t.Sound) {p q : Place}
    (hp : t.resolve path = .ok (.name p))
    (hq : t'.resolve (temporarySibling path) = .ok (.name q)) :
    t.resolve (temporarySibling path) = .ok (.name q) := by
  obtain ⟨s, hbeside⟩ := beside_of_place hp
  have hbeside' := hbeside.of_keeps hs hgrows.keeps
  have hopen : t.refusals.search p.directory = none := by
    obtain ⟨-, hleads⟩ := resolve_eq_ok_iff.mp hp
    cases hleads with
    | last hnames hwalk hlast =>
      obtain ⟨hopen, rfl, -⟩ := lastStep_eq_name_iff.mp hlast
      exact hopen
  have hplace := hbeside'.resolve_sibling (by rw [hgrows.refusals_eq, hopen]) hq
  rw [hq] at hplace
  have hbefore := hbeside.resolve_sibling hopen hq
  rwa [← show q = ⟨p.directory, q.name⟩ by simpa using hplace] at hbefore

/-- Directories that are made do not bring two names of a file about, where the path has
led to a name before. -/
theorem Apart.of_grows (h : t.Apart path) (hs : t.Sound) (hgrows : Grows t t') {p : Place}
    (hp : t.resolve path = .ok (.name p)) : t'.Apart path := by
  intro p' q f hp' hq hnode hnode'
  rw [hgrows.keeps.resolve hs hp] at hp'
  cases hp'
  exact h p q f hp (hgrows.resolve_sibling hs hp hq) (hgrows.file_eq hnode) (hgrows.file_eq hnode')

/-- Where the sibling has led to a name before directories were made, the record's file is the
same afterwards. -/
theorem Apart.of_grows_sibling (h : t.Apart path) (hs : t.Sound) (hgrows : Grows t t') {q : Place}
    (hq : t.resolve (temporarySibling path) = .ok (.name q)) : t'.Apart path := by
  intro p q' f hp hq' hnode hsame
  obtain ⟨s, hbeside, -⟩ := beside_of_resolve hq
  have hbeside' := hbeside.of_keeps hs hgrows.keeps
  have hplace := hbeside'.place_eq hp
  have hfile := hgrows.file_eq hnode
  have hresolve : t'.resolve path = t.resolve path := by
    refine hbeside.resolve_eq hbeside' hgrows.refusals_eq ?_
    rw [← hplace, hnode, hfile]
  rw [hgrows.keeps.resolve hs hq] at hq'
  cases hq'
  exact h p q f (hresolve ▸ hp) hq hfile (hgrows.file_eq hsame)

theorem Readable.of_grows (h : t.Readable path) (hs : t.Sound) (hgrows : Grows t t') {q : Place}
    (hq : t.resolve path = .ok (.name q)) : t'.Readable path := by
  intro p f hp hnode
  rw [hgrows.keeps.resolve hs hq] at hp
  cases hp
  rw [hgrows.refusals_eq]
  exact h q f hq (hgrows.file_eq hnode)

/-- In an empty directory nothing stands under the sibling's name. -/
theorem LeadsToEmpty.node?_sibling (h : t.LeadsToEmpty (parent path)) {q : Place}
    (hq : t.resolve (temporarySibling path) = .ok (.name q)) : t.node? q = none := by
  obtain ⟨d, hwalk, hempty, hopen, -⟩ := h
  obtain ⟨s, hbeside, -⟩ := beside_of_resolve hq
  obtain ⟨-, -, -, hdot, -⟩ := split?_eq_some hbeside.split?_eq
  obtain ⟨k, hnames⟩ := names_of_split? hbeside.split?_eq
  have hdots : withoutDots (List.replicate k ".") = [] := by
    refine List.filter_eq_nil_iff.mpr fun n hn => ?_
    rw [List.eq_of_mem_replicate hn]
    decide
  have hbefore : withoutDots (names (parent path)) = withoutDots (names s.before) := by
    rw [withoutDots_names_parent, hnames, List.append_cons, withoutDots_append, hdots,
      List.append_nil, withoutDots_append, withoutDots_of_ne hdot, List.dropLast_concat]
  rw [start_parent] at hwalk
  have hplace := walk_congr hopen hbefore hwalk
  rw [hbeside.walk_eq] at hplace
  cases hplace
  exact hempty q.name

/-- What is written to the sibling is not in the record's file. -/
theorem Written.content_record {q : Place} {id : FileId} {bytes : ByteArray}
    (h : Written t t' (temporarySibling path) q id bytes) (hs : t.Sound) (hapart : t.Apart path)
    {p : Place} {f : FileId} (hp : t.resolve path = .ok (.name p))
    (hnode : t.node? p = some (.file f)) : f ≠ id ∧ t'.content f = t.content f := by
  have hlt := hs.file_lt hnode
  have hne : f ≠ id := by
    rintro rfl
    rcases h.before with hsame | ⟨-, hnew, -⟩
    · exact hapart p q f hp h.resolve_before hnode hsame
    · exact Nat.not_lt.mpr hnew hlt
  exact ⟨hne, h.content_other hne hlt⟩

theorem Written.content_removed {q : Place} {id : FileId} {bytes : ByteArray} {t'' : RawTree}
    {answer : Except Failure Unit} (h : Written t t' path q id bytes)
    (hremove : t'.remove path = (answer, t'')) (f : FileId) : t''.content f = t'.content f := by
  rcases h.removed hremove with ⟨rfl, -⟩ | ⟨rfl, -⟩ <;> rfl

/-- A sibling that has been written and removed, as far as it can be, is not read along the path. -/
theorem Written.readBytes_removed {q : Place} {id : FileId} {bytes : ByteArray} {t'' : RawTree}
    {answer : Except Failure Unit} (h : Written t t' (temporarySibling path) q id bytes)
    (hs : t.Sound) (hapart : t.Apart path)
    (hremove : t'.remove (temporarySibling path) = (answer, t'')) :
    t''.readBytes path = t.readBytes path :=
  (h.changes_removed hremove).1.readBytes_of_sibling hs h.resolve_before fun _ f hp hnode =>
    (h.content_removed hremove f).trans (h.content_record hs hapart hp hnode).2

end RawTree
end ScopedSettings.Files
