/-
The names in a path and in its directory part.

The directory part of a path has the names of the path but for the last one, if
names that stay in a directory are not counted (`withoutDots_names_parent`). Both are
functions of the text, one of which reads it from its end.
-/
import ScopedSettings.Files.Path

namespace ScopedSettings.Files

/-! ## The names in a text -/

theorem splitAt_ne_nil (separator : Char) (cs : List Char) : splitAt separator cs ≠ [] := by
  cases cs with
  | nil => simp [splitAt]
  | cons c cs =>
    rw [splitAt]
    split
    · simp
    · split <;> simp

theorem splitAt_append (separator : Char) (a b : List Char) :
    splitAt separator (a ++ separator :: b) = splitAt separator a ++ splitAt separator b := by
  induction a with
  | nil => simp [splitAt]
  | cons c a ih =>
    simp only [List.cons_append, splitAt, ih]
    split
    · rfl
    · obtain ⟨part, parts, hparts⟩ := List.exists_cons_of_ne_nil (splitAt_ne_nil separator a)
      rw [hparts]
      rfl

theorem splitAt_of_not_mem {separator : Char} {cs : List Char} (h : separator ∉ cs) :
    splitAt separator cs = [cs] := by
  induction cs with
  | nil => rfl
  | cons c cs ih =>
    obtain ⟨hc, hcs⟩ := not_or.mp (mt List.mem_cons.mpr h)
    simp [splitAt, ih hcs, Ne.symm hc]

/-- The names a text leads through, in order, without the empty ones. -/
def namesIn (cs : List Char) : List String :=
  ((splitAt '/' cs).map String.ofList).filter fun n => n != ""

theorem names_eq (path : String) : names path = namesIn path.toList := rfl

theorem names_ofList (cs : List Char) : names (String.ofList cs) = namesIn cs := by
  rw [names_eq, String.toList_ofList]

@[simp] theorem namesIn_nil : namesIn [] = [] := rfl

theorem namesIn_append (a b : List Char) :
    namesIn (a ++ '/' :: b) = namesIn a ++ namesIn b := by
  unfold namesIn
  rw [splitAt_append, List.map_append, List.filter_append]

theorem ofList_ne {cs : List Char} {s : String} (h : cs ≠ s.toList) : String.ofList cs ≠ s := by
  rintro rfl
  exact h String.toList_ofList.symm

theorem namesIn_of_not_mem {cs : List Char} (h : '/' ∉ cs) (hne : cs ≠ []) :
    namesIn cs = [String.ofList cs] := by
  have hname : String.ofList cs ≠ "" := ofList_ne hne
  unfold namesIn
  rw [splitAt_of_not_mem h]
  simp [hname]

/-- What stands before the first slash of a reversed text is the last name of the text. -/
theorem namesIn_reverse {name : List Char} (h : '/' ∉ name) (hne : name ≠ []) (rest : List Char) :
    namesIn (name ++ '/' :: rest).reverse =
      namesIn rest.reverse ++ [String.ofList name.reverse] := by
  have hreverse : (name ++ '/' :: rest).reverse = rest.reverse ++ '/' :: name.reverse := by simp
  rw [hreverse, namesIn_append,
    namesIn_of_not_mem (by simpa using h) (mt List.reverse_eq_nil_iff.mp hne)]

/-- Names without those that stay in a directory. -/
def withoutDots (ns : List String) : List String :=
  ns.filter (· != ".")

@[simp] theorem withoutDots_append (ns ms : List String) :
    withoutDots (ns ++ ms) = withoutDots ns ++ withoutDots ms := by
  unfold withoutDots
  rw [List.filter_append]

@[simp] theorem withoutDots_nil : withoutDots [] = [] := rfl

theorem withoutDots_of_ne {name : String} (h : name ≠ ".") : withoutDots [name] = [name] := by
  simp [withoutDots, h]

/-! ## The directory part -/

/-- What ends a path leads nowhere else. -/
theorem withoutDots_dropEnding (cs : List Char) :
    withoutDots (namesIn (dropEnding cs).reverse) = withoutDots (namesIn cs.reverse) := by
  fun_induction dropEnding cs with
  | case1 rest ih =>
    rw [ih, List.reverse_cons, namesIn_append, withoutDots_append, namesIn_nil, withoutDots_nil,
      List.append_nil]
  | case2 rest ih =>
    have hdot : withoutDots (namesIn ['.']) = [] := rfl
    rw [ih, List.reverse_cons, List.reverse_cons, List.append_assoc, List.singleton_append,
      namesIn_append, withoutDots_append, hdot, List.append_nil]
  | case3 => rfl

theorem dropEnding_suffix (cs : List Char) : dropEnding cs <:+ cs := by
  fun_induction dropEnding cs with
  | case1 rest ih => exact ih.trans (List.suffix_cons _ _)
  | case2 rest ih => exact ih.trans ((List.suffix_cons _ _).trans (List.suffix_cons _ _))
  | case3 cs => exact List.suffix_refl cs

/-- Without its ending a text that has a slash has a name after the last one. -/
theorem name_of_dropEnding {cs name rest : List Char} (h : dropEnding cs = name ++ '/' :: rest) :
    name ≠ [] ∧ name ≠ ['.'] := by
  fun_induction dropEnding cs with
  | case1 rest ih => exact ih h
  | case2 rest ih => exact ih h
  | case3 cs hslash hdot =>
    constructor
    · rintro rfl
      exact hslash _ h
    · rintro rfl
      exact hdot _ h

/-- The text of the directory part of a path, reversed; nothing if it has none. -/
def parentText (path : String) : List Char :=
  dropEnding ((dropEnding path.toList.reverse).dropWhile (· != '/'))

theorem parent_eq (path : String) :
    parent path = if parentText path = [] then (if isAbsolute path then "/" else ".")
      else String.ofList (parentText path).reverse := by
  unfold parent parentText
  dsimp only
  cases dropEnding ((dropEnding path.toList.reverse).dropWhile (· != '/')) with
  | nil => rfl
  | cons c cs => rfl

theorem withoutDots_names_parentText (path : String) :
    withoutDots (names (parent path)) = withoutDots (namesIn (parentText path).reverse) := by
  rw [parent_eq]
  split
  · rename_i hempty
    rw [hempty]
    split <;> rfl
  · rw [names_ofList]

theorem dropWhile_of_not_mem {cs : List Char} (h : '/' ∉ cs) (rest : List Char) :
    (cs ++ rest).dropWhile (· != '/') = rest.dropWhile (· != '/') := by
  refine List.dropWhile_append_of_pos fun c hc => ?_
  simpa using fun heq : c = '/' => h (heq ▸ hc)

/-- A text up to its last slash has the names of the text but the last. -/
theorem withoutDots_dropWhile {cs : List Char}
    (h : ∀ name rest, cs = name ++ '/' :: rest → name ≠ [] ∧ name ≠ ['.']) :
    withoutDots (namesIn (cs.dropWhile (· != '/')).reverse) =
      (withoutDots (namesIn cs.reverse)).dropLast := by
  by_cases hslash : '/' ∈ cs
  · obtain ⟨name, rest, rfl, hname⟩ := List.eq_append_cons_of_mem hslash
    obtain ⟨hne, hdot⟩ := h name rest rfl
    have hdrop := dropWhile_of_not_mem hname ('/' :: rest)
    rw [List.dropWhile_cons_of_neg (by simp)] at hdrop
    have hlast : String.ofList name.reverse ≠ "." :=
      ofList_ne fun heq => hdot (List.reverse_eq_iff.mp heq)
    rw [hdrop, namesIn_reverse hname hne, List.reverse_cons, namesIn_append, namesIn_nil,
      List.append_nil, withoutDots_append, withoutDots_of_ne hlast, List.dropLast_concat]
  · have hdrop := dropWhile_of_not_mem hslash []
    rw [List.append_nil] at hdrop
    rw [hdrop]
    by_cases hne : cs = []
    · rw [hne]
      rfl
    · rw [namesIn_of_not_mem (by simpa using hslash) (mt List.reverse_eq_nil_iff.mp hne)]
      unfold withoutDots
      rw [List.filter_cons]
      split <;> rfl

/-- The names of the directory part are those of the path but the last. -/
theorem withoutDots_names_parent (path : String) :
    withoutDots (names (parent path)) = (withoutDots (names path)).dropLast := by
  have hpath := withoutDots_dropEnding path.toList.reverse
  rw [List.reverse_reverse] at hpath
  rw [withoutDots_names_parentText, names_eq, ← hpath]
  unfold parentText
  rw [withoutDots_dropEnding]
  exact withoutDots_dropWhile fun _ _ => name_of_dropEnding

/-- The last of several names of a directory part leads somewhere else. -/
theorem last_names_parent {path : String} {before : List String} {last : String}
    (h : names (parent path) = before ++ [last]) (hne : before ≠ []) : last ≠ "." := by
  have hshort (name : String) : before ++ [last] ≠ [] ++ [name] := fun heq =>
    hne (List.append_inj' heq rfl).1
  rw [parent_eq] at h
  split at h
  · split at h
    · exact absurd (show [] = before ++ [last] from h) (by simp)
    · exact absurd h.symm (hshort ".")
  · rename_i htext
    rw [names_ofList] at h
    by_cases hslash : '/' ∈ parentText path
    · obtain ⟨name, rest, htext', hname⟩ := List.eq_append_cons_of_mem hslash
      obtain ⟨hname', hdot⟩ := name_of_dropEnding htext'
      rw [htext', namesIn_reverse hname hname'] at h
      obtain ⟨-, hlast⟩ := List.append_inj' h rfl
      cases hlast
      exact ofList_ne fun heq => hdot (List.reverse_eq_iff.mp heq)
    · rw [namesIn_of_not_mem (by simpa using hslash) (mt List.reverse_eq_nil_iff.mp htext)] at h
      exact absurd h.symm (hshort _)

theorem isAbsolute_parent (path : String) : isAbsolute (parent path) = isAbsolute path := by
  rw [parent_eq]
  split
  · cases hpath : isAbsolute path <;> rfl
  · rename_i hne
    have hprefix : (parentText path).reverse <+: path.toList := by
      rw [← List.reverse_suffix, List.reverse_reverse]
      exact (dropEnding_suffix _).trans ((List.dropWhile_suffix _).trans (dropEnding_suffix _))
    unfold isAbsolute
    rw [String.toList_ofList]
    obtain ⟨rest, hrest⟩ := hprefix
    rw [← hrest]
    obtain ⟨c, cs, hcons⟩ := List.exists_cons_of_ne_nil (mt List.reverse_eq_nil_iff.mp hne)
    rw [hcons]
    rfl

theorem isEmpty_parent (path : String) : (parent path).isEmpty = false := by
  rw [parent_eq]
  split
  · split <;> rfl
  · rename_i hne
    simpa using hne

end ScopedSettings.Files
