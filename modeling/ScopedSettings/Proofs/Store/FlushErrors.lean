/-
Failed commits that have replaced the record all the same.

After a record has been replaced its directory is flushed, and if that fails the
commit fails with an error of its own (`FileStore.isUnflushed`). No other error of
a store on the same path looks like it (`FileStore.isUnflushed_unavailable_iff`),
whatever the path and whatever the system says.
-/
import ScopedSettings.Store.File

namespace ScopedSettings.FileStore

open Files

/-- How the message begins that a directory could not be flushed. -/
def unflushedText (path : String) : List Char :=
  ("failed to " ++ Action.syncDirectory.text ++ " " ++ path ++ ": ").toList

/-- Does an error say that the directory could not be flushed, the record being replaced? -/
def isUnflushed (path : String) : SettingsError → Bool
  | .storeUnavailable reason => (unflushedText path).isPrefixOf reason.toList
  | .recordNotFound | .validation _ | .serialization _ | .config _ => false

/-- A text that is followed by a mark does not begin with another and itself, followed by the
mark, if the mark is not in the other. -/
theorem append_cons_ne {mark : Char} {before : List Char} (hbefore : before ≠ [])
    (hmark : mark ∉ before) (text rest rest' : List Char) :
    text ++ mark :: rest ≠ before ++ (text ++ mark :: rest') := by
  intro h
  rcases List.append_eq_append_iff.mp h with ⟨after, hafter, hrest⟩ | ⟨shorter, htext, hshorter⟩
  · cases after with
    | nil =>
      -- what is marked is the other text, which begins with the mark then
      rw [List.append_nil] at hafter
      subst hafter
      obtain ⟨c, cs, rfl⟩ := List.exists_cons_of_ne_nil hbefore
      rw [List.nil_append, List.cons_append] at hrest
      exact hmark ((List.cons.inj hrest).1 ▸ List.mem_cons_self)
    | cons c cs =>
      rw [List.cons_append] at hrest
      rw [hafter, ← (List.cons.inj hrest).1] at hmark
      exact hmark (List.mem_append_right _ List.mem_cons_self)
  · rw [htext, List.append_assoc] at hshorter
    have hlt : shorter.length < text.length := by
      rw [htext, List.length_append]
      have := List.length_pos_iff.mpr hbefore
      omega
    exact append_cons_ne hbefore hmark shorter rest rest' hshorter.symm
termination_by text.length

theorem isUnflushed_unavailable {path : String} {action : Action} {f : Failure} :
    isUnflushed path (unavailable action path f) = true ↔
      Action.syncDirectory.text.toList ++ ' ' :: (path.toList ++ [':', ' ']) <+:
        action.text.toList ++ ' ' :: (path.toList ++ ':' :: ' ' :: f.message.toList) := by
  have hblank : " ".toList = [' '] := rfl
  have hcolon : ": ".toList = [':', ' '] := rfl
  unfold unavailable isUnflushed unflushedText
  simp only [List.isPrefixOf_iff_prefix, String.toList_append, List.append_assoc, hblank, hcolon,
    List.prefix_append_right_inj, List.cons_append, List.nil_append]

/-- Only where it was to flush the directory does a store say that it could not. -/
theorem isUnflushed_unavailable_iff (path : String) (action : Action) (f : Failure) :
    isUnflushed path (unavailable action path f) = true ↔ action = .syncDirectory := by
  rw [isUnflushed_unavailable]
  constructor
  · rintro ⟨rest, h⟩
    cases action with
    | syncDirectory => rfl
    | sync =>
      have hmark : ':' ∉ "directory of ".toList := by decide
      have hne : "directory of ".toList ≠ [] := by decide
      have htext : Action.syncDirectory.text.toList ++ [' '] =
          Action.sync.text.toList ++ ' ' :: "directory of ".toList := by decide
      rw [List.append_cons, htext] at h
      simp only [List.append_assoc, List.cons_append, List.append_cancel_left_eq, List.cons.injEq,
        true_and, List.nil_append] at h
      exact absurd h.symm (append_cons_ne hne hmark _ _ _)
    | read | makeDirectories | create | write | replace =>
      exact absurd (congrArg List.head? h) (by simp [Action.text])
  · rintro rfl
    exact ⟨f.message.toList, by simp⟩

theorem isUnflushed_unavailable_of_ne (path : String) {action : Action}
    (h : action ≠ .syncDirectory) (f : Failure) :
    isUnflushed path (unavailable action path f) = false :=
  Bool.eq_false_iff.mpr (mt (isUnflushed_unavailable_iff path action f).mp h)

end ScopedSettings.FileStore
