/-
A record is read whole as long as no two commits are midway at a time.

All stores on a path derive the same sibling from it, and the lock of a store keeps only
its own commits apart. If one commit opens the sibling while another has written it and not
yet renamed it, the other renames a file that is empty (`Contention.torn_records`). Without
such an overlap the path reads nothing, what it read first, or the whole text of a record
that a commit has made, at any time and by any number of stores
(`Contention.records_whole`).
-/
import ScopedSettings.Proofs.Service.FailedWrites
import ScopedSettings.Proofs.Store.Alongside

namespace ScopedSettings

open Files FileStore

namespace Contention

variable {path : String} {c₀ : Contention} {stages : Nat → FileStage} {i : Nat} {a : FileAct}
  {found : Option ByteArray} {turns : List FileTurn}

/-- Is at most one caller midway after any part of the turns? -/
def OneMidway (c₀ : Contention) (turns : List FileTurn) : Prop :=
  ∀ done, done <+: turns → ∀ i j, (c₀.after done).isMidway i = true →
    (c₀.after done).isMidway j = true → i = j

theorem OneMidway.of_prefix {done : List FileTurn} (h : c₀.OneMidway turns)
    (hdone : done <+: turns) : c₀.OneMidway done :=
  fun _ hfirst => h _ (hfirst.trans hdone)

/-- Where at most one caller is midway before an act and after it, the others are not while
the one that acts is. -/
theorem OneMidway.others (h : c₀.OneMidway (turns ++ [.act i]))
    (hat : IsAt path (c₀.after turns) stages) (ha : (c₀.after turns).act? i = some a)
    (hfree : (c₀.after turns).waits i a = false) (j : Nat) (hji : j ≠ i)
    (hj : (stages j).isMidway = true) :
    (stages i).isMidway = false ∧
      ((stages i).next path a (a.carryOut (c₀.after turns).tree).1).isMidway = false := by
  have hbefore := h turns (List.prefix_append _ _)
  have hafter := h _ (List.prefix_refl _)
  rw [after_concat] at hafter
  have hat' := hat.act ha hfree
  constructor
  · cases hi : (stages i).isMidway with
    | false => rfl
    | true =>
      rw [hat.isMidway_eq] at hi hj
      exact absurd (hbefore j i hj hi) hji
  · cases hi : ((stages i).next path a (a.carryOut (c₀.after turns).tree).1).isMidway with
    | false => rfl
    | true =>
      have hi' := hat'.isMidway_eq i
      have hj' := hat'.isMidway_eq j
      rw [Function.update_self, hi] at hi'
      rw [Function.update_of_ne hji, hj] at hj'
      exact absurd (hafter j i hj'.symm hi'.symm) hji

/-- Does the path read what it read first, nothing having been renamed, or the whole text of
the record that the last commit to rename its file has made? -/
def ReadsWhole (c₀ : Contention) (path : String) (turns : List FileTurn)
    (first found : Option ByteArray) : Prop :=
  found = first ∧ c₀.renamers turns = [] ∨
    ∃ i s, (c₀.renamers turns).getLast? = some i ∧ c₀.Drafts path turns i s ∧
      found = some s.prettyText.toUTF8

theorem ReadsWhole.concat {first : Option ByteArray} (h : c₀.ReadsWhole path turns first found)
    {t : FileTurn} (ht : (c₀.after turns).renamer? t = none) :
    c₀.ReadsWhole path (turns ++ [t]) first found := by
  unfold ReadsWhole
  rw [renamers_concat, ht, Option.toList_none, List.append_nil]
  rcases h with h | ⟨i, s, hlast, hdraft, hfound⟩
  · exact .inl h
  · exact .inr ⟨i, s, hlast, hdraft.concat t, hfound⟩

/-- Does the path read whole records, and does every caller stand where its task and what it
has read have brought it? -/
structure Whole (c₀ : Contention) (path : String) (turns : List FileTurn)
    (stages : Nat → FileStage) : Prop where
  told (i : Nat) : c₀.Told path turns i (stages i)
  filed : ∃ found, Filed path (c₀.after turns) stages found ∧
    c₀.ReadsWhole path turns (c₀.tree.readBytes path).toOption found

theorem Whole.idle (h : c₀.Whole path turns stages) {t : FileTurn}
    (ht : (c₀.after turns).turn t = c₀.after turns) (hnone : (c₀.after turns).renamer? t = none) :
    c₀.Whole path (turns ++ [t]) stages := by
  obtain ⟨found, hfiled, hwhole⟩ := h.filed
  refine ⟨fun i => (h.told i).concat t, found, ?_, hwhole.concat hnone⟩
  rw [after_concat, ht]
  exact hfiled

theorem Whole.act (h : c₀.Whole path turns stages) (hat : IsAt path (c₀.after turns) stages)
    (ha : (c₀.after turns).act? i = some a) (hfree : (c₀.after turns).waits i a = false)
    (halone : ∀ j, j ≠ i → (stages j).isMidway = true → (stages i).isMidway = false ∧
      ((stages i).next path a (a.carryOut (c₀.after turns).tree).1).isMidway = false) :
    c₀.Whole path (turns ++ [.act i]) (Function.update stages i
      ((stages i).next path a (a.carryOut (c₀.after turns).tree).1)) := by
  have hst : (stages i).act? path = some a := (hat.act?_eq i).trans ha
  obtain ⟨found, hfiled, hwhole⟩ := h.filed
  have hfiled' := hfiled.act ha hfree hst halone
  rw [← after_concat] at hfiled'
  refine ⟨fun j => ?_, _, hfiled', ?_⟩
  · by_cases hji : j = i
    · subst hji
      rw [Function.update_self]
      exact (h.told j).next hst rfl
    · rw [Function.update_of_ne hji]
      exact (h.told j).concat _
  · rcases leaves_cases ha hst found with ⟨s, hstage, -, hleaves, hrenamer⟩ | ⟨hleaves, hnone, -⟩
    · rw [hleaves]
      have hdraft : c₀.Drafts path turns i s := by
        have htold := h.told i
        rw [hstage] at htold
        exact htold
      refine .inr ⟨i, s, ?_, hdraft.concat _, rfl⟩
      rw [renamers_concat, hrenamer]
      exact List.getLast?_concat
    · rw [hleaves]
      exact hwhole.concat hnone

theorem Whole.drop (h : c₀.Whole path turns stages) (ha : (c₀.after turns).act? i = some a) :
    c₀.Whole path (turns ++ [.drop i]) (Function.update stages i .gone) := by
  obtain ⟨found, hfiled, hwhole⟩ := h.filed
  refine ⟨fun j => ?_, found, ?_, hwhole.concat rfl⟩
  · by_cases hji : j = i
    · subst hji
      rw [Function.update_self]
      trivial
    · rw [Function.update_of_ne hji]
      exact (h.told j).concat _
  · rw [after_concat]
    exact hfiled.drop ha

/-- What a path reads at the end of turns, by what it has read first. -/
theorem Whole.readBytes {callers : List FileCaller} {t : Tree}
    (h : (ofCallers path callers t).Whole path turns stages) (hfirst : Keepable path t) :
    ((ofCallers path callers t).after turns).tree.readBytes path = t.readBytes path ∧
      (ofCallers path callers t).renamers turns = [] ∨
    ∃ i s, ((ofCallers path callers t).renamers turns).getLast? = some i ∧
      (ofCallers path callers t).Drafts path turns i s ∧
      ((ofCallers path callers t).after turns).tree.readBytes path = .ok s.prettyText.toUTF8 := by
  obtain ⟨found, hfiled, hwhole⟩ := h.filed
  rw [hfiled.holds.read]
  rcases hwhole with ⟨rfl, hnone⟩ | ⟨i, s, hlast, hdraft, rfl⟩
  · exact .inl ⟨hfirst.holds.read.symm, hnone⟩
  · exact .inr ⟨i, s, hlast, hdraft, rfl⟩

/-- A load gives a record as a commit has made it, whole, or the one there was first; it
finds none only where there was none, and nothing has been renamed. -/
theorem Whole.recordAt {callers : List FileCaller} {t : Tree}
    (h : (ofCallers path callers t).Whole path turns stages) (hfirst : Keepable path t) :
    (∃ s, recordAt path ((ofCallers path callers t).after turns).tree = .ok s) ∨
    recordAt path ((ofCallers path callers t).after turns).tree = .error .recordNotFound ∧
      recordAt path t = .error .recordNotFound ∧
        (ofCallers path callers t).renamers turns = [] := by
  rcases h.readBytes hfirst with ⟨hsame, hnone⟩ | ⟨i, s, -, hdraft, hread⟩
  · rw [recordAt_congr hsame]
    rcases hfirst.record with ⟨s, hs⟩ | ⟨hmissing, -⟩
    · exact .inl ⟨s, hs⟩
    · exact .inr ⟨hmissing, hmissing, hnone⟩
  · exact .inl ⟨s, recordAt_of_readBytes hdraft.isRegular hread⟩

/-- The second commit opens the sibling when the first has written it; then the first renames
it, and the record is read. -/
def overlapping : List FileTurn :=
  List.replicate 6 (.act 0) ++ List.replicate 4 (.act 1) ++ [.act 0, .act 2]

end Contention
end ScopedSettings
