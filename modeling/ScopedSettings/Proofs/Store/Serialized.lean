/-
Commits through one store come one after another.

A commit holds the store's lock from the time it reads the record until it has renamed its
sibling over it, so what it writes is its update of the record as it still is. The callers
that rename their siblings stand in an order, and the record is at any time the first one
with their updates applied in that order (`Contention.commits_serialized`); a load reads
the record as it is after some of them, and a caller that is dropped or fails before its
turn in that order changes nothing that is read.
-/
import ScopedSettings.Proofs.Store.WholeRecords

namespace ScopedSettings

open Files FileStore

namespace Contention

variable {path : String} {t : Tree} {tasks : List FileTask} {stages : Nat → FileStage} {i : Nat}
  {a : FileAct} {turns : List FileTurn} {order : List Nat}
  {first : Except SettingsError Settings}

/-! ## The record after commits -/

/-- The record after a caller's commit. -/
def afterCommit (tasks : List FileTask) (record : Except SettingsError Settings) (i : Nat) :
    Except SettingsError Settings :=
  match tasks[i]? with
  | some (.commit u now) => (baseOf record).map fun base => u.apply base now
  | some .load | none => record

/-- The record after the commits of callers, one after another. -/
def afterCommits (tasks : List FileTask) (first : Except SettingsError Settings)
    (order : List Nat) : Except SettingsError Settings :=
  order.foldl (afterCommit tasks) first

theorem afterCommits_concat (tasks : List FileTask) (first : Except SettingsError Settings)
    (order : List Nat) (i : Nat) :
    afterCommits tasks first (order ++ [i]) =
      afterCommit tasks (afterCommits tasks first order) i :=
  List.foldl_append

theorem afterCommit_of_task {u : Update} {now : Instant} (htask : tasks[i]? = some (.commit u now))
    {base : Settings} {record : Except SettingsError Settings} (hbase : baseOf record = .ok base) :
    afterCommit tasks record i = .ok (u.apply base now) := by
  unfold afterCommit
  rw [htask, hbase]
  rfl

theorem task?_ofTasks (path : String) (tasks : List FileTask) (t : Tree) (i : Nat) :
    (ofTasks path tasks t).task? i = tasks[i]? := by
  unfold task? ofTasks ofCallers
  rw [List.getElem?_map]
  cases tasks[i]? <;> rfl

/-! ## Who stands where in the order -/

/-- Has a caller its place in the order, with the given record as the result? -/
def Ordered (tasks : List FileTask) (first : Except SettingsError Settings) (order : List Nat)
    (i : Nat) (s : Settings) : Prop :=
  ∃ before rest, order = before ++ i :: rest ∧ afterCommits tasks first (before ++ [i]) = .ok s

/-- What a caller at a stage has to do with the order: until it renames its sibling it is not
in it, and what it is to write is the record with its own commit next. Of the commits that fail
those are in the order that fail when the directory is flushed. -/
def Placed (path : String) (tasks : List FileTask) (first : Except SettingsError Settings)
    (order : List Nat) (i : Nat) : FileStage → Prop
  | .preparing s | .creating s | .writing s _ | .syncing s _ | .replacing s =>
    i ∉ order ∧ afterCommits tasks first (order ++ [i]) = .ok s
  | .removing e => i ∉ order ∧ isUnflushed path e = false
  | .flushing s | .releasing (.ok s) => Ordered tasks first order i s
  | .releasing (.error e) => i ∈ order ↔ isUnflushed path e = true
  | .ended (.ok s) => tasks[i]? ≠ some .load → Ordered tasks first order i s
  | .ended (.error e) => tasks[i]? ≠ some .load → (i ∈ order ↔ isUnflushed path e = true)
  | .gone => True
  | _ => i ∉ order

theorem Ordered.concat {s : Settings} (h : Ordered tasks first order i s) (j : Nat) :
    Ordered tasks first (order ++ [j]) i s := by
  obtain ⟨before, rest, horder, hs⟩ := h
  exact ⟨before, rest ++ [j], by rw [horder, List.append_assoc]; rfl, hs⟩

theorem Ordered.mem {s : Settings} (h : Ordered tasks first order i s) : i ∈ order := by
  obtain ⟨before, rest, rfl, -⟩ := h
  exact List.mem_append_right _ List.mem_cons_self

/-- A caller that has failed without renaming its sibling is not in the order. -/
theorem mem_order_iff {e : SettingsError} (hmem : i ∉ order) (he : isUnflushed path e = false) :
    i ∈ order ↔ isUnflushed path e = true := by
  rw [he]
  exact ⟨fun hi => absurd hi hmem, fun h => nomatch h⟩

/-- A caller that does not hold the lock does not mind another one's place. -/
theorem Placed.concat {st : FileStage} (h : Placed path tasks first order i st) {j : Nat}
    (hij : i ≠ j) (hst : st.isHolding = false) :
    Placed path tasks first (order ++ [j]) i st := by
  have hmem : i ∈ order ++ [j] ↔ i ∈ order := by
    rw [List.mem_append, List.mem_singleton, or_iff_left hij]
  cases st with
  | loading | waiting u now => exact mt hmem.mp h
  | ended answer =>
    cases answer with
    | ok s => exact fun hload => (h hload).concat j
    | error e => exact fun hload => hmem.trans (h hload)
  | gone => trivial
  | _ => cases hst

/-- What a caller is to write when it has read the record is its commit of the record. -/
theorem placed_based {t : RawTree} {u : Update} {now : Instant}
    (htask : tasks[i]? = some (.commit u now)) (hmem : i ∉ order)
    (hrecord : recordAt path t = afterCommits tasks first order) :
    Placed path tasks first order i (.based u now (baseOf (recordAt path t))) := by
  cases hbase : baseOf (recordAt path t) with
  | error e => exact mem_order_iff hmem (isUnflushed_of_unread hbase)
  | ok base =>
    refine ⟨hmem, ?_⟩
    rw [afterCommits_concat, ← hrecord]
    exact afterCommit_of_task htask hbase

/-- An act that renames nothing leaves its caller's place in the order as it is. -/
theorem Placed.next {st : FileStage} (h : Placed path tasks first order i st)
    (ha : st.act? path = some a) {x : a.Answer}
    (htold : (ofTasks path tasks t).Told path turns i st)
    (hread : ∀ u now, st = .basing u now → ∃ t : RawTree,
      recordAt path t = afterCommits tasks first order ∧
        st.next path a x = .based u now (baseOf (recordAt path t)))
    (hnone : ∀ s, st = .replacing s →
      ∃ f, st.next path a x = .removing (unavailable .replace path f)) :
    Placed path tasks first order i (st.next path a x) := by
  cases st with
  | loading =>
    cases ha
    have hload : tasks[i]? = some .load := (task?_ofTasks path tasks t i) ▸ htold
    change Placed path tasks first order i (.ended (answerOf path x))
    cases answerOf path x <;> exact fun hne => absurd hload hne
  | waiting u now =>
    cases ha
    exact h
  | basing u now =>
    have htask : tasks[i]? = some (.commit u now) := (task?_ofTasks path tasks t i) ▸ htold
    obtain ⟨t', hrecord, hnext⟩ := hread u now rfl
    rw [hnext]
    exact placed_based htask h hrecord
  | preparing s | creating s =>
    cases ha
    cases x with
    | error f => exact mem_order_iff h.1 (isUnflushed_unavailable_of_ne path (by decide) f)
    | ok _ => exact h
  | writing s id | syncing s id =>
    cases ha
    cases x with
    | error f => exact ⟨h.1, isUnflushed_unavailable_of_ne path (by decide) f⟩
    | ok _ => exact h
  | replacing s =>
    obtain ⟨f, hf⟩ := hnone s rfl
    rw [hf]
    exact ⟨h.1, isUnflushed_unavailable_of_ne path (by decide) f⟩
  | removing e =>
    cases ha
    exact mem_order_iff h.1 h.2
  | flushing s =>
    cases ha
    cases x with
    | error f =>
      exact iff_of_true (Ordered.mem h)
        ((isUnflushed_unavailable_iff path .syncDirectory f).mpr rfl)
    | ok _ => exact h
  | releasing answer =>
    cases ha
    cases answer with
    | ok s => exact fun _ => h
    | error e => exact fun _ => h
  | ended answer | gone => cases ha

/-! ## Runs -/

/-- Is the record the first one with the commits of the order, and does every caller have
its place in that? -/
structure Serial (path : String) (tasks : List FileTask) (t : Tree) (turns : List FileTurn)
    (stages : Nat → FileStage) : Prop where
  record : recordAt path ((ofTasks path tasks t).after turns).tree =
    afterCommits tasks (recordAt path t) ((ofTasks path tasks t).renamers turns)
  nodup : ((ofTasks path tasks t).renamers turns).Nodup
  commits (i : Nat) (h : i ∈ (ofTasks path tasks t).renamers turns) :
    ∃ u now, tasks[i]? = some (.commit u now)
  placed (i : Nat) : Placed path tasks (recordAt path t) ((ofTasks path tasks t).renamers turns) i
    (stages i)

theorem Serial.same (h : Serial path tasks t turns stages) {turn : FileTurn}
    {stages' : Nat → FileStage}
    (hnone : ((ofTasks path tasks t).after turns).renamer? turn = none)
    (hrecord : recordAt path ((ofTasks path tasks t).after (turns ++ [turn])).tree =
      recordAt path ((ofTasks path tasks t).after turns).tree)
    (hplaced : ∀ i, Placed path tasks (recordAt path t) ((ofTasks path tasks t).renamers turns) i
      (stages' i)) : Serial path tasks t (turns ++ [turn]) stages' := by
  have horder : (ofTasks path tasks t).renamers (turns ++ [turn]) =
      (ofTasks path tasks t).renamers turns := by
    rw [renamers_concat, hnone]
    exact List.append_nil _
  constructor
  · rw [hrecord, horder]
    exact h.record
  · rw [horder]
    exact h.nodup
  · rw [horder]
    exact h.commits
  · rw [horder]
    exact hplaced

/-- A caller that renames its sibling comes next in the order. -/
theorem Serial.next (h : Serial path tasks t turns stages) {turn : FileTurn}
    (hrenamer : ((ofTasks path tasks t).after turns).renamer? turn = some i) {s : Settings}
    (hplaced : Placed path tasks (recordAt path t) ((ofTasks path tasks t).renamers turns) i
      (.replacing s))
    (htask : ∃ u now, tasks[i]? = some (.commit u now))
    (hrecord : recordAt path ((ofTasks path tasks t).after (turns ++ [turn])).tree = .ok s)
    (hothers : ∀ j, j ≠ i → (stages j).isHolding = false) :
    Serial path tasks t (turns ++ [turn]) (Function.update stages i (.flushing s)) := by
  obtain ⟨hmem, hs⟩ := hplaced
  have horder : (ofTasks path tasks t).renamers (turns ++ [turn]) =
      (ofTasks path tasks t).renamers turns ++ [i] := by
    rw [renamers_concat, hrenamer]
    rfl
  constructor
  · rw [horder, hs, hrecord]
  · rw [horder]
    refine List.nodup_append.mpr ⟨h.nodup, by simp, fun j hj k hk => ?_⟩
    rw [List.mem_singleton.mp hk]
    rintro rfl
    exact hmem hj
  · intro j hj
    rw [horder, List.mem_append, List.mem_singleton] at hj
    rcases hj with hj | rfl
    · exact h.commits j hj
    · exact htask
  · intro j
    rw [horder]
    by_cases hji : j = i
    · subst hji
      rw [Function.update_self]
      exact ⟨_, [], rfl, hs⟩
    · rw [Function.update_of_ne hji]
      exact (h.placed j).concat hji (hothers j hji)

theorem storeOf_ofTasks (path : String) (tasks : List FileTask) (t : Tree) (i : Nat) :
    (ofTasks path tasks t).storeOf i = 0 := by
  unfold storeOf ofTasks ofCallers
  rw [List.getElem?_map]
  cases tasks[i]? <;> rfl

theorem storeOf_after (c : Contention) (turns : List FileTurn) (i : Nat) :
    (c.after turns).storeOf i = c.storeOf i := by
  induction turns using List.reverseRecOn with
  | nil => rfl
  | append_singleton turns t ih => rw [after_concat, storeOf_turn, ih]

/-- Only a caller that holds the lock comes to be midway. -/
theorem isHolding_of_next {st : FileStage} (ha : st.act? path = some a) {x : a.Answer}
    (h : (st.next path a x).isMidway = true) : st.isHolding = true := by
  cases st with
  | loading | waiting u now =>
    cases ha
    cases h
  | ended answer | gone => cases ha
  | _ => rfl

theorem Locked.eq_of_isHolding (h : Locked ((ofTasks path tasks t).after turns) stages) {j : Nat}
    (hi : (stages i).isHolding = true) (hj : (stages j).isHolding = true) : j = i := by
  refine h.eq hj hi ?_
  rw [storeOf_after, storeOf_after, storeOf_ofTasks, storeOf_ofTasks]

/-- Of the callers of one store no two are midway. -/
theorem Locked.others (h : Locked ((ofTasks path tasks t).after turns) stages)
    (hst : (stages i).act? path = some a) (x : a.Answer) (j : Nat) (hji : j ≠ i)
    (hj : (stages j).isMidway = true) :
    (stages i).isMidway = false ∧ ((stages i).next path a x).isMidway = false := by
  have hholding := FileStage.isHolding_of_isMidway hj
  constructor
  · cases hi : (stages i).isMidway with
    | false => rfl
    | true => exact absurd (h.eq_of_isHolding (FileStage.isHolding_of_isMidway hi) hholding) hji
  · cases hi : ((stages i).next path a x).isMidway with
    | false => rfl
    | true => exact absurd (h.eq_of_isHolding (isHolding_of_next hst hi) hholding) hji

/-- A rename gives its caller the next place in the order; any other act leaves the order and
the record. -/
theorem Serial.act (h : Serial path tasks t turns stages)
    (hwhole : (ofTasks path tasks t).Whole path turns stages)
    (hlocked : Locked ((ofTasks path tasks t).after turns) stages)
    (hst : (stages i).act? path = some a)
    (ha : ((ofTasks path tasks t).after turns).act? i = some a)
    (hfree : ((ofTasks path tasks t).after turns).waits i a = false) :
    Serial path tasks t (turns ++ [.act i]) (Function.update stages i
      ((stages i).next path a (a.carryOut ((ofTasks path tasks t).after turns).tree).1)) := by
  obtain ⟨found, hfiled, -⟩ := hwhole.filed
  have hread := (hfiled.act ha hfree hst (hlocked.others hst _)).holds.read
  rw [← after_concat] at hread
  have hplaced := h.placed i
  have htold := hwhole.told i
  rcases leaves_cases ha hst found with
    ⟨s, hstage, hnext, hleaves, hrenamer⟩ | ⟨hleaves, hnone, hremoving⟩
  · rw [hstage] at hplaced htold
    rw [hleaves] at hread
    rw [hnext]
    obtain ⟨u, now, _, _, htask, -⟩ := id htold
    rw [task?_ofTasks] at htask
    have hregular := Drafts.isRegular htold
    refine h.next hrenamer hplaced ⟨u, now, htask⟩ (recordAt_of_readBytes hregular hread)
      fun j hji => ?_
    cases hj : (stages j).isHolding with
    | false => rfl
    | true =>
      have hi : (stages i).isHolding = true := by
        rw [hstage]
        rfl
      exact absurd (hlocked.eq_of_isHolding hi hj) hji
  · rw [hleaves, ← hfiled.holds.read] at hread
    refine h.same hnone (recordAt_congr hread) fun j => ?_
    by_cases hji : j = i
    · subst hji
      rw [Function.update_self]
      refine hplaced.next hst htold ?_ hremoving
      rintro u now hbasing
      rw [hbasing] at hst
      cases hst
      rw [hbasing]
      exact ⟨_, h.record, rfl⟩
    · rw [Function.update_of_ne hji]
      exact h.placed j

theorem Serial.drop (h : Serial path tasks t turns stages)
    (ha : ((ofTasks path tasks t).after turns).act? i = some a) :
    Serial path tasks t (turns ++ [.drop i]) (Function.update stages i .gone) := by
  refine h.same rfl ?_ fun j => ?_
  · rw [after_concat, turn_drop ha]
  · by_cases hji : j = i
    · subst hji
      rw [Function.update_self]
      trivial
    · rw [Function.update_of_ne hji]
      exact h.placed j

end Contention
end ScopedSettings
