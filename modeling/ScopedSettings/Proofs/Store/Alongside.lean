/-
What the turns of a file store's callers keep.

The caller that is between its first act and its last with the lock is the one that holds
it (`Contention.Locked`), so of the callers of one store at most one is midway. While at
most one is midway, whichever store it calls, no act but a rename changes what the path
reads, and what is renamed is what the caller has written (`Contention.Filed`).
-/
import ScopedSettings.Proofs.Store.FileStages
import ScopedSettings.Proofs.Store.Replacing

namespace ScopedSettings

open Files FileStore

namespace FileStage

/-- Is the lock held at a stage? -/
def isHolding : FileStage → Bool
  | .loading | .waiting _ _ | .ended _ | .gone => false
  | _ => true

/-- Is there an open sibling at a stage, neither renamed nor removed? -/
def isMidway : FileStage → Bool
  | .writing _ _ | .syncing _ _ | .replacing _ | .removing _ => true
  | _ => false

theorem isHolding_of_isMidway {st : FileStage} (h : st.isMidway = true) : st.isHolding = true := by
  cases st <;> first | rfl | cases h

/-- What the sibling holds at a stage. -/
def Opening (path : String) (t : Tree) : FileStage → Prop
  | .writing _ id => Opens path t id .empty
  | .syncing s id => Opens path t id s.prettyText.toUTF8
  | .replacing s => ∃ id, Opens path t id s.prettyText.toUTF8
  | .removing _ => ∃ id bytes, Opens path t id bytes
  | _ => True

variable {path : String} {t t' : Tree} {st : FileStage} {found : Option ByteArray}

theorem opening_of_not_midway (h : st.isMidway = false) (path : String) (t : Tree) :
    Opening path t st := by
  cases st <;> trivial

theorem Opening.of_grows (h : Opening path t st) (hgrows : RawTree.Grows t t') :
    Opening path t' st := by
  cases st with
  | writing s id => exact Opens.of_grows h hgrows
  | syncing s id => exact Opens.of_grows h hgrows
  | replacing s =>
    obtain ⟨id, hopens⟩ := h
    exact ⟨id, hopens.of_grows hgrows⟩
  | removing e =>
    obtain ⟨id, bytes, hopens⟩ := h
    exact ⟨id, bytes, hopens.of_grows hgrows⟩
  | _ => trivial

/-- What is read along the path after an act. -/
def leaves (found : Option ByteArray) : FileStage → (a : FileAct) → a.Answer → Option ByteArray
  | .replacing s, .rename _ _, .ok () => some s.prettyText.toUTF8
  | _, _, _ => found

/-- An act does what it should to the record and to the caller's sibling; of the siblings
of others it leaves what it finds, unless its caller is midway. -/
theorem effect (hholds : Holds path t found) (hopening : Opening path t st) {a : FileAct}
    (ha : st.act? path = some a) {x : a.Answer} (hx : a.carryOut t = (x, t')) :
    Holds path t' (st.leaves found a x) ∧ Opening path t' (st.next path a x) ∧
      (RawTree.Grows t t' ∨ st.isMidway = true ∨ (st.next path a x).isMidway = true) := by
  have hsame : RawTree.Grows t t := .refl t
  cases st with
  | loading | waiting u now | releasing answer =>
    cases ha
    cases hx
    exact ⟨hholds, trivial, .inl hsame⟩
  | basing u now =>
    cases ha
    cases hx
    refine ⟨hholds, ?_, .inl hsame⟩
    change Opening path t (based u now (baseOf (recordAt path t)))
    cases baseOf (recordAt path t) <;> trivial
  | preparing s =>
    cases ha
    have hmade : t.makeDirectories (parent path) = (x, t') := hx
    have hraw := Tree.toRawTree_lift hmade
    refine ⟨hholds.makeDirectories hraw, ?_, .inl (t.sound.made hraw).1⟩
    cases x <;> trivial
  | creating s =>
    cases ha
    have hcreated : t.create (temporarySibling path) = (x, t') := hx
    have hraw := Tree.toRawTree_lift hcreated
    cases x with
    | error f =>
      obtain rfl := Tree.eq_of_toRawTree (RawTree.eq_of_create_error hraw)
      exact ⟨hholds, trivial, .inl hsame⟩
    | ok id =>
      obtain ⟨hholds', hopens⟩ := hholds.create hraw
      exact ⟨hholds', hopens, .inr (.inr rfl)⟩
  | writing s id =>
    cases ha
    have hwritten : t.write id s.prettyText.toUTF8 = (x, t') := hx
    obtain ⟨hholds', part, hopens, hall⟩ := hholds.write hopening (Tree.toRawTree_lift hwritten)
    cases x with
    | error f => exact ⟨hholds', ⟨id, part, hopens⟩, .inr (.inl rfl)⟩
    | ok _ =>
      obtain rfl := hall rfl
      exact ⟨hholds', hopens, .inr (.inl rfl)⟩
  | syncing s id =>
    cases ha
    obtain ⟨-, rfl⟩ := Prod.mk.inj hx
    cases x with
    | error f => exact ⟨hholds, ⟨id, _, hopening⟩, .inr (.inl rfl)⟩
    | ok _ => exact ⟨hholds, ⟨id, hopening⟩, .inr (.inl rfl)⟩
  | replacing s =>
    cases ha
    have hrenamed : t.rename (temporarySibling path) path = (x, t') := hx
    have hraw := Tree.toRawTree_lift hrenamed
    obtain ⟨id, hopens⟩ := hopening
    cases x with
    | error f =>
      obtain rfl := Tree.eq_of_toRawTree (RawTree.eq_of_rename_error hraw)
      exact ⟨hholds, ⟨id, _, hopens⟩, .inr (.inl rfl)⟩
    | ok _ => exact ⟨hholds.rename hopens hraw, trivial, .inr (.inl rfl)⟩
  | removing e =>
    cases ha
    have hremoved : t.remove (temporarySibling path) = (x, t') := hx
    obtain ⟨id, bytes, hopens⟩ := hopening
    exact ⟨hholds.remove hopens (Tree.toRawTree_lift hremoved), trivial, .inr (.inl rfl)⟩
  | flushing s =>
    cases ha
    obtain ⟨-, rfl⟩ := Prod.mk.inj hx
    refine ⟨hholds, ?_, .inl hsame⟩
    cases x <;> trivial
  | ended answer => cases ha
  | gone => cases ha

end FileStage

namespace Contention

variable {path : String} {c : Contention} {stages : Nat → FileStage} {i : Nat} {a : FileAct}

/-! ## Who holds the lock -/

/-- Does every caller that should hold the lock of its store do so? -/
def Locked (c : Contention) (stages : Nat → FileStage) : Prop :=
  ∀ i, (stages i).isHolding = true → c.holder (c.storeOf i) = some i

theorem holder_turn_act (ha : c.act? i = some a) (hfree : c.waits i a = false) :
    (c.turn (.act i)).holder = c.holderAfter i a := by
  obtain ⟨next, hp⟩ := exists_step_of_act? ha
  rw [turn_act hp hfree]

theorem tree_turn_act (ha : c.act? i = some a) (hfree : c.waits i a = false) :
    (c.turn (.act i)).tree = (a.carryOut c.tree).2 := by
  obtain ⟨next, hp⟩ := exists_step_of_act? ha
  rw [turn_act hp hfree]

@[simp] theorem callers_turn (c : Contention) (t : FileTurn) : (c.turn t).callers = c.callers := by
  unfold turn
  split
  · split
    · split <;> rfl
    all_goals rfl
  · split <;> rfl

theorem storeOf_turn (c : Contention) (t : FileTurn) (i : Nat) :
    (c.turn t).storeOf i = c.storeOf i := by
  unfold storeOf
  rw [callers_turn]

/-- Only a caller that has taken the lock is at a stage that holds it. -/
theorem isHolding_next {st : FileStage} (ha : st.act? path = some a) (x : a.Answer)
    (h : (st.next path a x).isHolding = true) : a = .acquire ∨ st.isHolding = true := by
  cases st with
  | loading => cases ha; cases h
  | waiting u now => cases ha; exact .inl rfl
  | ended answer | gone => cases ha
  | _ => exact .inr rfl

theorem isHolding_of_release {st : FileStage} (ha : st.act? path = some .release) :
    st.isHolding = true := by
  cases st <;> first | rfl | cases ha

theorem Locked.act (h : Locked c stages) (ha : c.act? i = some a) (hfree : c.waits i a = false)
    (hst : (stages i).act? path = some a) (x : a.Answer) :
    Locked (c.turn (.act i)) (Function.update stages i ((stages i).next path a x)) := by
  intro j hj
  rw [storeOf_turn, holder_turn_act ha hfree]
  by_cases hji : j = i
  · subst hji
    rw [Function.update_self] at hj
    cases a with
    | acquire => exact if_pos rfl
    | release =>
      -- what follows the last act does not hold the lock
      cases hst' : stages j <;> rw [hst'] at hst hj <;> cases hst
      cases hj
    | _ => exact h j ((isHolding_next hst x hj).resolve_left (by simp))
  · rw [Function.update_of_ne hji] at hj
    have hholder := h j hj
    cases a with
    | acquire =>
      have hnone : c.holder (c.storeOf i) = none := by simpa [waits] using hfree
      have hstore : c.storeOf j ≠ c.storeOf i := by
        intro heq
        rw [heq, hnone] at hholder
        cases hholder
      exact (if_neg hstore).trans hholder
    | release =>
      have hstore : c.storeOf j ≠ c.storeOf i := by
        intro heq
        rw [heq, h i (isHolding_of_release hst)] at hholder
        exact hji (Option.some.inj hholder).symm
      exact (if_neg hstore).trans hholder
    | _ => exact hholder

theorem Locked.drop (h : Locked c stages) (ha : c.act? i = some a) :
    Locked (c.turn (.drop i)) (Function.update stages i .gone) := by
  intro j hj
  by_cases hji : j = i
  · subst hji
    rw [Function.update_self] at hj
    cases hj
  · rw [Function.update_of_ne hji] at hj
    have hother : some j ≠ some i := fun heq => hji (Option.some.inj heq)
    rw [storeOf_turn, turn_drop ha]
    change (if c.holder (c.storeOf j) = some i then none else c.holder (c.storeOf j)) = some j
    rw [h j hj, if_neg hother]

/-- Of the callers of one store one holds the lock at most. -/
theorem Locked.eq (h : Locked c stages) {i j : Nat} (hi : (stages i).isHolding = true)
    (hj : (stages j).isHolding = true) (hstore : c.storeOf i = c.storeOf j) : i = j := by
  have hholder := h i hi
  rw [hstore, h j hj] at hholder
  exact (Option.some.inj hholder).symm

/-! ## What is read along the path -/

/-- Does the path read the given bytes, or nothing, and does the sibling hold what the
caller that is midway has written? -/
structure Filed (path : String) (c : Contention) (stages : Nat → FileStage)
    (found : Option ByteArray) : Prop where
  holds : Holds path c.tree found
  opening (i : Nat) : (stages i).Opening path c.tree

theorem IsAt.isMidway_eq (h : IsAt path c stages) (i : Nat) :
    (stages i).isMidway = c.isMidway i := by
  unfold isMidway
  rw [← h.act?_eq i]
  cases stages i <;> rfl

variable {found : Option ByteArray}

/-- While no other caller is midway an act leaves what it should. -/
theorem Filed.act (h : Filed path c stages found) (ha : c.act? i = some a)
    (hfree : c.waits i a = false) (hst : (stages i).act? path = some a)
    (halone : ∀ j, j ≠ i → (stages j).isMidway = true → (stages i).isMidway = false ∧
      ((stages i).next path a (a.carryOut c.tree).1).isMidway = false) :
    Filed path (c.turn (.act i))
      (Function.update stages i ((stages i).next path a (a.carryOut c.tree).1))
      ((stages i).leaves found a (a.carryOut c.tree).1) := by
  have hx : a.carryOut c.tree = ((a.carryOut c.tree).1, (a.carryOut c.tree).2) := rfl
  obtain ⟨hholds, hopening, hothers⟩ := FileStage.effect h.holds (h.opening i) hst hx
  constructor
  · rw [tree_turn_act ha hfree]
    exact hholds
  · intro j
    rw [tree_turn_act ha hfree]
    by_cases hji : j = i
    · subst hji
      rw [Function.update_self]
      exact hopening
    · rw [Function.update_of_ne hji]
      cases hmidway : (stages j).isMidway with
      | false => exact FileStage.opening_of_not_midway hmidway _ _
      | true =>
        obtain ⟨hbefore, hafter⟩ := halone j hji hmidway
        rw [hbefore, hafter] at hothers
        exact (h.opening j).of_grows (hothers.resolve_right (by simp))

theorem Filed.drop (h : Filed path c stages found) (ha : c.act? i = some a) :
    Filed path (c.turn (.drop i)) (Function.update stages i .gone) found := by
  rw [turn_drop ha]
  refine ⟨h.holds, fun j => ?_⟩
  by_cases hji : j = i
  · subst hji
    rw [Function.update_self]
    trivial
  · rw [Function.update_of_ne hji]
    exact h.opening j

theorem renamer?_of_ne (ha : c.act? i = some a) (h : ∀ source target, a ≠ .rename source target) :
    c.renamer? (.act i) = none := by
  unfold renamer?
  simp only [ha]
  split
  · rename_i source target heq
    exact absurd (Option.some.inj heq) (h source target)
  · rfl

/-- What the path reads changes exactly at a turn that renames a sibling. -/
theorem leaves_cases (ha : c.act? i = some a) (hst : (stages i).act? path = some a)
    (found : Option ByteArray) :
    let x := (a.carryOut c.tree).1
    (∃ s, stages i = .replacing s ∧ (stages i).next path a x = .flushing s ∧
      (stages i).leaves found a x = some s.prettyText.toUTF8 ∧ c.renamer? (.act i) = some i) ∨
    (stages i).leaves found a x = found ∧ c.renamer? (.act i) = none ∧
      ∀ s, stages i = .replacing s →
        ∃ f, (stages i).next path a x = .removing (unavailable .replace path f) := by
  cases hstage : stages i with
  | replacing s =>
    rw [hstage] at hst
    cases hst
    cases hrenamed : c.tree.rename (temporarySibling path) path with
    | mk answer t' =>
    cases answer with
    | error f =>
      right
      simp only [FileAct.carryOut, renamer?, ha, hrenamed]
      exact ⟨rfl, trivial, fun _ _ => ⟨f, rfl⟩⟩
    | ok _ =>
      left
      simp only [FileAct.carryOut, renamer?, ha, hrenamed]
      exact ⟨s, rfl, rfl, rfl, trivial⟩
  | ended answer | gone =>
    rw [hstage] at hst
    cases hst
  | _ =>
    rw [hstage] at hst
    cases hst
    exact .inr ⟨rfl, renamer?_of_ne ha (by simp), by simp⟩

/-! ## What callers have read -/

/-- Is a record the update of a caller's commit, applied to what the path has read at some
time before? -/
def Drafts (c₀ : Contention) (path : String) (turns : List FileTurn) (i : Nat) (s : Settings) :
    Prop :=
  ∃ u now base done, c₀.task? i = some (.commit u now) ∧ done <+: turns ∧
    baseOf (recordAt path (c₀.after done).tree) = .ok base ∧ s = u.apply base now

/-- What a caller at a stage has come for, and what it has read. -/
def Told (c₀ : Contention) (path : String) (turns : List FileTurn) (i : Nat) : FileStage → Prop
  | .loading => c₀.task? i = some .load
  | .waiting u now | .basing u now => c₀.task? i = some (.commit u now)
  | .preparing s | .creating s | .writing s _ | .syncing s _ | .replacing s | .flushing s
  | .releasing (.ok s) => c₀.Drafts path turns i s
  | .removing _ | .releasing (.error _) => c₀.task? i ≠ some .load
  | .ended answer => c₀.task? i = some .load →
    ∃ done rest, turns = done ++ .act i :: rest ∧ answer = recordAt path (c₀.after done).tree
  | .gone => True

variable {c₀ : Contention} {turns : List FileTurn}

theorem Drafts.concat {s : Settings} (h : c₀.Drafts path turns i s) (t : FileTurn) :
    c₀.Drafts path (turns ++ [t]) i s := by
  obtain ⟨u, now, base, done, htask, hdone, hbase, hs⟩ := h
  exact ⟨u, now, base, done, htask, hdone.trans (List.prefix_append _ _), hbase, hs⟩

theorem Drafts.task?_ne {s : Settings} (h : c₀.Drafts path turns i s) :
    c₀.task? i ≠ some .load := by
  obtain ⟨u, now, base, done, htask, -⟩ := h
  rw [htask]
  simp

theorem Drafts.isRegular {s : Settings} (h : c₀.Drafts path turns i s) : s.IsRegular := by
  obtain ⟨u, now, base, done, -, -, -, rfl⟩ := h
  exact Settings.isRegular_apply u base now

theorem Told.concat {st : FileStage} (h : c₀.Told path turns i st) (t : FileTurn) :
    c₀.Told path (turns ++ [t]) i st := by
  cases st with
  | preparing s => exact Drafts.concat h t
  | creating s => exact Drafts.concat h t
  | writing s id => exact Drafts.concat h t
  | syncing s id => exact Drafts.concat h t
  | replacing s => exact Drafts.concat h t
  | flushing s => exact Drafts.concat h t
  | releasing answer =>
    cases answer with
    | ok s => exact Drafts.concat h t
    | error e => exact h
  | ended answer =>
    intro htask
    obtain ⟨done, rest, hturns, hanswer⟩ := h htask
    exact ⟨done, rest ++ [t], by rw [hturns, List.append_assoc]; rfl, hanswer⟩
  | _ => exact h

/-- An act tells its caller what it has come for, as the path reads at the time. -/
theorem Told.next {st : FileStage} (h : c₀.Told path turns i st) (ha : st.act? path = some a)
    {x : a.Answer} (hx : (a.carryOut (c₀.after turns).tree).1 = x) :
    c₀.Told path (turns ++ [.act i]) i (st.next path a x) := by
  have hafter := h.concat (.act i)
  cases st with
  | loading =>
    cases ha
    cases hx
    exact fun _ => ⟨turns, [], rfl, rfl⟩
  | waiting u now =>
    cases ha
    exact h
  | basing u now =>
    cases ha
    cases hx
    change c₀.Told path _ i (.based u now (baseOf (recordAt path (c₀.after turns).tree)))
    cases hbase : baseOf (recordAt path (c₀.after turns).tree) with
    | error e =>
      intro hload
      rw [show c₀.task? i = _ from h] at hload
      cases hload
    | ok base => exact ⟨u, now, base, turns, h, List.prefix_append _ _, hbase, rfl⟩
  | preparing s | creating s | writing s id | syncing s id | replacing s | flushing s =>
    cases ha
    cases x with
    | error f => exact Drafts.task?_ne h
    | ok _ => exact hafter
  | removing e =>
    cases ha
    exact h
  | releasing answer =>
    cases ha
    intro hload
    cases answer with
    | ok s => exact absurd hload (Drafts.task?_ne h)
    | error e => exact absurd hload h
  | ended answer => cases ha
  | gone => cases ha

end Contention
end ScopedSettings
