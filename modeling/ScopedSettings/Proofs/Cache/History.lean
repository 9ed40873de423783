/-
The scope cache against the history of its operations.

The reference is the list of the operations so far and nothing else: an entry is the value
of the worker's last put that no clear has followed (`held`), and a counter counts
operations of one kind by whether their worker had an entry then (`count`). A cache that
began empty goes with its history (`Tells`), which one step lemma carries through a run, so
each operation answers as the history says (`answers_eq`).

An operation looks at one worker's entry and changes no other. So of two neighbours on
different workers neither sees the other, and the histories that differ in their order
cannot be told apart (`Alike`).
-/
import Mathlib.Data.Finset.Card
import ScopedSettings.Proofs.Cache.Balance

namespace ScopedSettings.ScopeCache

variable {α : Type}

/-! ## Operations and their history -/

/-- An operation on the cache. -/
inductive Operation (α : Type)
  | put (w : WorkerId) (a : α)
  | get (w : WorkerId)
  | clear (w : WorkerId)
  | contains (w : WorkerId)
  | size
  | isEmpty
  | stats
  deriving DecidableEq

/-- What an operation answers. -/
inductive Answer (α : Type)
  | done
  | entry (found : Option α)
  | truth (b : Bool)
  | number (n : Nat)
  | stats (s : CacheStats)
  deriving DecidableEq

/-- An operation carried out: its answer, and the cache afterwards. -/
def perform (c : ScopeCache α) : Operation α → Answer α × ScopeCache α
  | .put w a => (.done, c.put w a)
  | .get w => (.entry (c.get w).1, (c.get w).2)
  | .clear w => (.truth (c.clear w).1, (c.clear w).2)
  | .contains w => (.truth (c.contains w), c)
  | .size => (.number c.size, c)
  | .isEmpty => (.truth c.isEmpty, c)
  | .stats => (.stats c.stats, c)

/-- The cache after some operations. -/
def after (c : ScopeCache α) (ops : List (Operation α)) : ScopeCache α :=
  ops.foldl (fun c op => (c.perform op).2) c

/-- What some operations answer, one after another. -/
def answers (c : ScopeCache α) : List (Operation α) → List (Answer α)
  | [] => []
  | op :: ops => (c.perform op).1 :: answers (c.perform op).2 ops

namespace Operation

/-- The worker an operation is on; `none` where it is on the cache as a whole. -/
def worker? : Operation α → Option WorkerId
  | put w _ | get w | clear w | contains w => some w
  | size | isEmpty | stats => none

def isPut : Operation α → Bool
  | put _ _ => true
  | _ => false

def isGet : Operation α → Bool
  | get _ => true
  | _ => false

def isClear : Operation α → Bool
  | clear _ => true
  | _ => false

/-- Does the operation give the worker an entry, or take one from it? -/
def changes (w : WorkerId) : Operation α → Bool
  | put v _ | clear v => v == w
  | _ => false

/-- What an operation makes of a worker's entry. -/
def entry (w : WorkerId) (held : Option α) : Operation α → Option α
  | put v a => if v = w then some a else held
  | clear v => if v = w then none else held
  | get _ | contains _ | size | isEmpty | stats => held

end Operation

/-- The entry a history leaves to a worker. -/
def held (ops : List (Operation α)) (w : WorkerId) : Option α :=
  ops.foldl (Operation.entry w) none

/-- The workers to whom a history leaves an entry. -/
def holders (ops : List (Operation α)) : Finset WorkerId :=
  (ops.filterMap Operation.worker?).toFinset.filter fun w => (held ops w).isSome

/-- The moments of a history that goes on: each operation, behind all those before it. -/
def moments (before : List (Operation α)) :
    List (Operation α) → List (List (Operation α) × Operation α)
  | [] => []
  | op :: ops => (before, op) :: moments (before ++ [op]) ops

/-- Is the operation of the kind, and was there an entry of its worker at that moment, or
was there none, as asked? -/
def meets (kind : Operation α → Bool) (found : Bool) (before : List (Operation α))
    (op : Operation α) : Bool :=
  kind op && op.worker?.any fun w => (held before w).isSome == found

/-- The operations of a kind that met an entry of their worker, or those that met none. -/
def count (kind : Operation α → Bool) (found : Bool) (ops : List (Operation α)) : Nat :=
  (moments [] ops).countP fun m => meets kind found m.1 m.2

/-- The counters a history amounts to. -/
def tally (ops : List (Operation α)) : CacheStats where
  hits := count Operation.isGet true ops
  misses := count Operation.isGet false ops
  loads := ops.countP Operation.isPut
  clears := count Operation.isClear true ops
  entries := (holders ops).card

/-- What an operation has to answer after a history. -/
def Operation.answer (before : List (Operation α)) : Operation α → Answer α
  | put _ _ => .done
  | get w => .entry (held before w)
  | clear w | contains w => .truth (held before w).isSome
  | size => .number (holders before).card
  | isEmpty => .truth ((holders before).card == 0)
  | stats => .stats (tally before)

/-! ## What a history leaves -/

@[simp] theorem held_nil (w : WorkerId) : held ([] : List (Operation α)) w = none := rfl

@[simp] theorem held_concat (ops : List (Operation α)) (op : Operation α) (w : WorkerId) :
    held (ops ++ [op]) w = op.entry w (held ops w) := by
  simp [held]

theorem Operation.entry_of_not_changes {op : Operation α} {w : WorkerId}
    (h : op.changes w = false) (x : Option α) : op.entry w x = x := by
  cases op <;> simp_all [changes, entry]

theorem Operation.changes_eq_false_iff {op : Operation α} {w : WorkerId} :
    op.changes w = false ↔ op ≠ .clear w ∧ ∀ a, op ≠ .put w a := by
  cases op <;> simp [changes]

theorem foldl_entry_of_not_changes {ops : List (Operation α)} {w : WorkerId}
    (h : ∀ op ∈ ops, op.changes w = false) (x : Option α) :
    ops.foldl (Operation.entry w) x = x := by
  induction ops with
  | nil => rfl
  | cons op ops ih =>
    rw [List.foldl_cons, Operation.entry_of_not_changes (h op List.mem_cons_self)]
    exact ih fun op' hop' => h op' (List.mem_cons_of_mem _ hop')

/-- The entry left to a worker is the value of its last put, with no clear behind it. -/
theorem held_eq_some_iff {ops : List (Operation α)} {w : WorkerId} {a : α} :
    held ops w = some a ↔
      ∃ before later, ops = before ++ .put w a :: later ∧
        ∀ op ∈ later, op.changes w = false := by
  constructor
  · intro h
    induction ops using List.reverseRecOn with
    | nil => simp at h
    | append_singleton ops op ih =>
      rw [held_concat] at h
      cases hchanges : op.changes w with
      | false =>
        rw [Operation.entry_of_not_changes hchanges] at h
        obtain ⟨before, later, rfl, hlater⟩ := ih h
        refine ⟨before, later ++ [op], by simp, fun op' hop' => ?_⟩
        rcases List.mem_append.mp hop' with hop' | hop'
        · exact hlater op' hop'
        · rw [List.mem_singleton.mp hop']
          exact hchanges
      | true =>
        -- an operation that changes the entry and leaves one is the put itself
        cases op with
        | put v b =>
          obtain rfl : v = w := by simpa [Operation.changes] using hchanges
          obtain rfl : b = a := by simpa [Operation.entry] using h
          exact ⟨ops, [], rfl, by simp⟩
        | clear v =>
          have hv : v = w := by simpa [Operation.changes] using hchanges
          simp [Operation.entry, hv] at h
        | get v | contains v | size | isEmpty | stats => simp [Operation.changes] at hchanges
  · rintro ⟨before, later, rfl, hlater⟩
    unfold held
    rw [List.foldl_append, List.foldl_cons, foldl_entry_of_not_changes hlater]
    simp [Operation.entry]

theorem mem_holders {ops : List (Operation α)} {w : WorkerId} :
    w ∈ holders ops ↔ (held ops w).isSome = true := by
  simp only [holders, Finset.mem_filter, List.mem_toFinset, List.mem_filterMap,
    and_iff_right_iff_imp]
  intro h
  obtain ⟨a, ha⟩ := Option.isSome_iff_exists.mp h
  obtain ⟨before, later, rfl, -⟩ := held_eq_some_iff.mp ha
  exact ⟨.put w a, by simp, rfl⟩

theorem moments_append (before ops later : List (Operation α)) :
    moments before (ops ++ later) = moments before ops ++ moments (before ++ ops) later := by
  induction ops generalizing before with
  | nil => simp [moments]
  | cons op ops ih => simp [moments, ih]

@[simp] theorem count_concat (kind : Operation α → Bool) (found : Bool)
    (ops : List (Operation α)) (op : Operation α) :
    count kind found (ops ++ [op]) =
      count kind found ops + if meets kind found ops op then 1 else 0 := by
  simp [count, moments_append, moments, List.countP_append, List.countP_singleton]

/-! ## The cache goes with its history -/

section Counters

variable (c : ScopeCache α) (w : WorkerId) (a : α)

@[simp] theorem hits_put : (c.put w a).hits = c.hits := rfl
@[simp] theorem misses_put : (c.put w a).misses = c.misses := rfl
@[simp] theorem loads_put : (c.put w a).loads = c.loads + 1 := rfl
@[simp] theorem clears_put : (c.put w a).clears = c.clears := rfl

@[simp] theorem entries_get : (c.get w).2.entries = c.entries := by
  unfold get; split <;> rfl

@[simp] theorem hits_get :
    (c.get w).2.hits = c.hits + if (c.peek? w).isSome then 1 else 0 := by
  unfold get; split <;> simp_all

@[simp] theorem misses_get :
    (c.get w).2.misses = c.misses + if (c.peek? w).isSome then 0 else 1 := by
  unfold get; split <;> simp_all

@[simp] theorem loads_get : (c.get w).2.loads = c.loads := by
  unfold get; split <;> rfl

@[simp] theorem clears_get : (c.get w).2.clears = c.clears := by
  unfold get; split <;> rfl

@[simp] theorem hits_clear : (c.clear w).2.hits = c.hits := by
  unfold clear; split <;> rfl

@[simp] theorem misses_clear : (c.clear w).2.misses = c.misses := by
  unfold clear; split <;> rfl

@[simp] theorem loads_clear : (c.clear w).2.loads = c.loads := by
  unfold clear; split <;> rfl

@[simp] theorem clears_clear :
    (c.clear w).2.clears = c.clears + if (c.peek? w).isSome then 1 else 0 := by
  unfold clear contains; split <;> simp_all

end Counters

/-- The cache's keys are distinct, its entries are those the history leaves, and its
counters count the operations of the history. -/
structure Tells (ops : List (Operation α)) (c : ScopeCache α) : Prop where
  distinct : (c.entries.map Prod.fst).Nodup
  peek?_eq : ∀ w, c.peek? w = held ops w
  hits_eq : c.hits = count Operation.isGet true ops
  misses_eq : c.misses = count Operation.isGet false ops
  loads_eq : c.loads = ops.countP Operation.isPut
  clears_eq : c.clears = count Operation.isClear true ops
  balance : c.loads = c.clears + c.size + count Operation.isPut true ops

namespace Tells

variable {ops : List (Operation α)} {c : ScopeCache α}

theorem empty : Tells [] (empty : ScopeCache α) where
  distinct := List.nodup_nil
  peek?_eq _ := rfl
  hits_eq := rfl
  misses_eq := rfl
  loads_eq := rfl
  clears_eq := rfl
  balance := rfl

theorem put (h : Tells ops c) (w : WorkerId) (a : α) :
    Tells (ops ++ [.put w a]) (c.put w a) where
  distinct := nodup_put h.distinct w a
  peek?_eq v := by
    rw [held_concat, ← h.peek?_eq]
    by_cases hv : w = v
    · subst hv
      simp [Operation.entry]
    · simp [Operation.entry, hv, peek?_put_other c (Ne.symm hv)]
  hits_eq := by simpa [meets, Operation.isGet] using h.hits_eq
  misses_eq := by simpa [meets, Operation.isGet] using h.misses_eq
  loads_eq := by simpa [Operation.isPut] using h.loads_eq
  clears_eq := by simpa [meets, Operation.isClear] using h.clears_eq
  balance := by
    have hsize := size_put h.distinct w a
    have hbalance := h.balance
    simp only [count_concat, meets, Operation.isPut, Operation.worker?, Option.any_some,
      ← h.peek?_eq, loads_put, clears_put, beq_true, Bool.true_and]
    omega

theorem get (h : Tells ops c) (w : WorkerId) : Tells (ops ++ [.get w]) (c.get w).2 where
  distinct := by simpa using h.distinct
  peek?_eq v := by simpa [Operation.entry] using h.peek?_eq v
  hits_eq := by
    simp [meets, Operation.isGet, Operation.worker?, h.hits_eq, ← h.peek?_eq]
  misses_eq := by
    cases hw : c.peek? w <;>
      simp [meets, Operation.isGet, Operation.worker?, h.misses_eq, ← h.peek?_eq, hw]
  loads_eq := by simpa [Operation.isPut] using h.loads_eq
  clears_eq := by simpa [meets, Operation.isClear] using h.clears_eq
  balance := by simpa [meets, Operation.isPut, size] using h.balance

theorem clear (h : Tells ops c) (w : WorkerId) :
    Tells (ops ++ [.clear w]) (c.clear w).2 where
  distinct := by
    rw [entries_clear]
    exact nodup_without h.distinct
  peek?_eq v := by
    rw [held_concat, ← h.peek?_eq]
    by_cases hv : w = v
    · subst hv
      simp [Operation.entry]
    · simp [Operation.entry, hv, peek?_clear_other c (Ne.symm hv)]
  hits_eq := by simpa [meets, Operation.isGet] using h.hits_eq
  misses_eq := by simpa [meets, Operation.isGet] using h.misses_eq
  loads_eq := by simpa [Operation.isPut] using h.loads_eq
  clears_eq := by
    simp [meets, Operation.isClear, Operation.worker?, h.clears_eq, ← h.peek?_eq]
  balance := by
    have hsize := size_clear h.distinct w
    have hbalance := h.balance
    simp only [count_concat, meets, Operation.isPut, loads_clear, clears_clear,
      Bool.false_and, Bool.false_eq_true, if_false]
    omega

/-- An operation that only looks leaves the cache and its history as they are. -/
theorem look (h : Tells ops c) {op : Operation α} (hput : op.isPut = false)
    (hget : op.isGet = false) (hclear : op.isClear = false) : Tells (ops ++ [op]) c where
  distinct := h.distinct
  peek?_eq v := by
    have hchanges : op.changes v = false := by
      cases op <;> simp_all [Operation.changes, Operation.isPut, Operation.isClear]
    rw [held_concat, Operation.entry_of_not_changes hchanges, h.peek?_eq]
  hits_eq := by simpa [meets, hget] using h.hits_eq
  misses_eq := by simpa [meets, hget] using h.misses_eq
  loads_eq := by simpa [hput] using h.loads_eq
  clears_eq := by simpa [meets, hclear] using h.clears_eq
  balance := by simpa [meets, hput] using h.balance

/-- A cache that goes with its history still does after one more operation. -/
theorem perform (h : Tells ops c) (op : Operation α) :
    Tells (ops ++ [op]) (c.perform op).2 := by
  cases op with
  | put w a => exact h.put w a
  | get w => exact h.get w
  | clear w => exact h.clear w
  | contains w | size | isEmpty | stats => exact h.look rfl rfl rfl

theorem contains_eq (h : Tells ops c) (w : WorkerId) :
    c.contains w = (held ops w).isSome := by
  rw [← h.peek?_eq]
  rfl

theorem size_eq (h : Tells ops c) : c.size = (holders ops).card := by
  have hkeys : (c.entries.map Prod.fst).toFinset = holders ops := by
    ext w
    rw [mem_holders, ← h.contains_eq, contains_eq_true_iff, List.mem_toFinset, List.mem_map]
  rw [← hkeys, List.toFinset_card_of_nodup h.distinct, List.length_map]
  rfl

theorem stats_eq (h : Tells ops c) : c.stats = tally ops := by
  simp [stats, tally, h.hits_eq, h.misses_eq, h.loads_eq, h.clears_eq, h.size_eq]

/-- The next operation answers what the history says. -/
theorem answer_eq (h : Tells ops c) (op : Operation α) :
    (c.perform op).1 = op.answer ops := by
  cases op with
  | put w a => rfl
  | get w => simp [ScopeCache.perform, Operation.answer, h.peek?_eq]
  | clear w => simp [ScopeCache.perform, Operation.answer, h.contains_eq]
  | contains w => simp [ScopeCache.perform, Operation.answer, h.contains_eq]
  | size => simp [ScopeCache.perform, Operation.answer, h.size_eq]
  | isEmpty =>
    have hempty : c.isEmpty = (c.size == 0) := by
      cases hc : c.entries <;> simp [isEmpty, size, hc]
    simp [ScopeCache.perform, Operation.answer, hempty, h.size_eq]
  | stats => simp [ScopeCache.perform, Operation.answer, h.stats_eq]

/-- A run goes on with its history: each operation answers what the operations before it
say, and the cache goes with all of them afterwards. -/
theorem run (h : Tells ops c) (later : List (Operation α)) :
    c.answers later = (moments ops later).map (fun m => m.2.answer m.1) ∧
      Tells (ops ++ later) (c.after later) := by
  induction later generalizing ops c with
  | nil => exact ⟨rfl, by simpa [after] using h⟩
  | cons op later ih =>
    obtain ⟨hanswers, htells⟩ := ih (h.perform op)
    refine ⟨?_, by simpa [after] using htells⟩
    simp only [answers, moments, List.map_cons, h.answer_eq, hanswers]

end Tells

/-! ## Neighbours on different workers -/

theorem Operation.not_changes_of_worker? {op : Operation α} {v w : WorkerId}
    (h : op.worker? = some v) (hvw : v ≠ w) : op.changes w = false := by
  cases op <;> simp_all [worker?, changes]

/-- Histories that no operation tells apart. -/
structure Alike (ops ops' : List (Operation α)) : Prop where
  held_eq : ∀ w, held ops w = held ops' w
  count_eq : ∀ kind found, count kind found ops = count kind found ops'
  perm : ops.Perm ops'

namespace Alike

variable {ops ops' : List (Operation α)}

theorem holders_eq (h : Alike ops ops') : holders ops = holders ops' := by
  ext w
  rw [mem_holders, mem_holders, h.held_eq]

theorem tally_eq (h : Alike ops ops') : tally ops = tally ops' := by
  simp [tally, h.count_eq, h.holders_eq, h.perm.countP_eq]

theorem answer_eq (h : Alike ops ops') (op : Operation α) : op.answer ops = op.answer ops' := by
  cases op <;> simp [Operation.answer, h.held_eq, h.holders_eq, h.tally_eq]

theorem concat (h : Alike ops ops') (op : Operation α) : Alike (ops ++ [op]) (ops' ++ [op]) where
  held_eq w := by rw [held_concat, held_concat, h.held_eq]
  count_eq kind found := by simp [meets, h.count_eq, h.held_eq]
  perm := h.perm.append_right [op]

theorem answers_eq (h : Alike ops ops') (later : List (Operation α)) :
    (moments ops later).map (fun m => m.2.answer m.1) =
      (moments ops' later).map (fun m => m.2.answer m.1) := by
  induction later generalizing ops ops' with
  | nil => rfl
  | cons op later ih => simp only [moments, List.map_cons, h.answer_eq, ih (h.concat op)]

theorem append (h : Alike ops ops') (later : List (Operation α)) :
    Alike (ops ++ later) (ops' ++ later) := by
  induction later generalizing ops ops' with
  | nil => simpa using h
  | cons op later ih => simpa using ih (h.concat op)

end Alike

section Neighbours

variable (before : List (Operation α)) {a b : Operation α} {v w : WorkerId}

/-- What an operation leaves to other workers is what they had. -/
theorem held_concat_other (ha : a.worker? = some v) (hvw : v ≠ w) :
    held (before ++ [a]) w = held before w := by
  rw [held_concat, Operation.entry_of_not_changes (Operation.not_changes_of_worker? ha hvw)]

theorem meets_concat_other (ha : a.worker? = some v) (hb : b.worker? = some w) (hvw : v ≠ w)
    (kind : Operation α → Bool) (found : Bool) :
    meets kind found (before ++ [a]) b = meets kind found before b := by
  simp only [meets, hb, Option.any_some, held_concat_other before ha hvw]

/-- An operation answers the same before a neighbour on another worker and behind it. -/
theorem answer_concat_other (ha : a.worker? = some v) (hb : b.worker? = some w) (hvw : v ≠ w) :
    b.answer (before ++ [a]) = b.answer before := by
  cases b with
  | put u x => rfl
  | get u | clear u | contains u =>
    obtain rfl : u = w := Option.some.inj hb
    simp only [Operation.answer, held_concat_other before ha hvw]
  | size | isEmpty | stats => simp [Operation.worker?] at hb

theorem entry_comm (ha : a.worker? = some v) (hb : b.worker? = some w) (hvw : v ≠ w)
    (u : WorkerId) (x : Option α) : b.entry u (a.entry u x) = a.entry u (b.entry u x) := by
  by_cases hu : v = u
  · have hchanges := Operation.not_changes_of_worker? hb (hu ▸ hvw.symm)
    rw [Operation.entry_of_not_changes hchanges, Operation.entry_of_not_changes hchanges]
  · have hchanges := Operation.not_changes_of_worker? ha hu
    rw [Operation.entry_of_not_changes hchanges, Operation.entry_of_not_changes hchanges]

/-- Two neighbours on different workers may change places. -/
theorem Alike.swap (ha : a.worker? = some v) (hb : b.worker? = some w) (hvw : v ≠ w) :
    Alike (before ++ [a] ++ [b]) (before ++ [b] ++ [a]) where
  held_eq u := by simp only [held_concat, entry_comm ha hb hvw]
  count_eq kind found := by
    simp only [count_concat, meets_concat_other before ha hb hvw,
      meets_concat_other before hb ha hvw.symm]
    omega
  perm := by simpa using (List.Perm.swap b a []).append_left before

end Neighbours

/-! ## Caches with the same entries -/

theorem mem_of_peek? {c : ScopeCache α} {w : WorkerId} {a : α} (h : c.peek? w = some a) :
    (w, a) ∈ c.entries := by
  obtain ⟨e, he, rfl⟩ := Option.map_eq_some_iff.mp h
  have hkey : e.1 = w := by simpa using List.find?_some he
  exact hkey ▸ List.mem_of_find?_eq_some he

theorem mem_entries_iff {c : ScopeCache α} (h : (c.entries.map Prod.fst).Nodup) {w : WorkerId}
    {a : α} : (w, a) ∈ c.entries ↔ c.peek? w = some a := by
  refine ⟨fun hmem => ?_, mem_of_peek?⟩
  have hcontains : c.contains w = true := contains_eq_true_iff.mpr ⟨(w, a), hmem, rfl⟩
  obtain ⟨b, hb⟩ := Option.isSome_iff_exists.mp hcontains
  have hab : (w, a) = (w, b) := List.inj_on_of_nodup_map h hmem (mem_of_peek? hb) rfl
  rw [hb, (Prod.mk.inj hab).2]

/-- Histories that leave the same entries leave them in the cache, in some order. -/
theorem Tells.entries_perm {ops ops' : List (Operation α)} {c c' : ScopeCache α}
    (h : Tells ops c) (h' : Tells ops' c') (hheld : ∀ w, held ops w = held ops' w) :
    c.entries.Perm c'.entries := by
  refine (List.perm_ext_iff_of_nodup (.of_map _ h.distinct) (.of_map _ h'.distinct)).mpr ?_
  rintro ⟨w, a⟩
  rw [mem_entries_iff h.distinct, mem_entries_iff h'.distinct, h.peek?_eq, h'.peek?_eq, hheld]

/-! ## Whole runs -/

theorem tells_after (ops : List (Operation α)) : Tells ops ((empty : ScopeCache α).after ops) :=
  (Tells.empty.run ops).2

theorem answers_eq (ops : List (Operation α)) :
    (empty : ScopeCache α).answers ops = (moments [] ops).map fun m => m.2.answer m.1 :=
  (Tells.empty.run ops).1

theorem length_answers (c : ScopeCache α) (ops : List (Operation α)) :
    (c.answers ops).length = ops.length := by
  induction ops generalizing c with
  | nil => rfl
  | cons op ops ih => simp [answers, ih]

/-- The answers of two neighbours stand between those before them and those behind. -/
theorem answers_neighbours (before later : List (Operation α)) (a b : Operation α) :
    (empty : ScopeCache α).answers (before ++ a :: b :: later) =
      empty.answers before ++ a.answer before :: b.answer (before ++ [a]) ::
        (moments (before ++ [a] ++ [b]) later).map fun m => m.2.answer m.1 := by
  simp [answers_eq, moments_append, moments]

section Neighbours

variable (before later : List (Operation α)) {a b : Operation α} {v w : WorkerId}

/-- Where two neighbours on different workers change places, so do their answers, and no
other answer changes. -/
theorem answers_swap (ha : a.worker? = some v) (hb : b.worker? = some w) (hvw : v ≠ w) :
    ∃ rs ra rb rs', rs.length = before.length ∧
      (empty : ScopeCache α).answers (before ++ a :: b :: later) = rs ++ ra :: rb :: rs' ∧
      (empty : ScopeCache α).answers (before ++ b :: a :: later) = rs ++ rb :: ra :: rs' := by
  have hlater := (Alike.swap before ha hb hvw).answers_eq later
  refine ⟨_, _, _, _, length_answers empty before, answers_neighbours before later a b, ?_⟩
  rw [answers_neighbours, answer_concat_other before ha hb hvw,
    answer_concat_other before hb ha hvw.symm, hlater]

/-- Where two neighbours on different workers change places, the cache is the same in the
end. -/
theorem after_swap (ha : a.worker? = some v) (hb : b.worker? = some w) (hvw : v ≠ w) :
    let c : ScopeCache α := empty.after (before ++ a :: b :: later)
    let c' : ScopeCache α := empty.after (before ++ b :: a :: later)
    c.entries.Perm c'.entries ∧ c.stats = c'.stats := by
  have halike : Alike (before ++ a :: b :: later) (before ++ b :: a :: later) := by
    simpa using (Alike.swap before ha hb hvw).append later
  have h := tells_after (before ++ a :: b :: later)
  have h' := tells_after (before ++ b :: a :: later)
  exact ⟨h.entries_perm h' halike.held_eq, by rw [h.stats_eq, h'.stats_eq, halike.tally_eq]⟩

end Neighbours

/-- A cache that began empty refines the finite map that its history leaves, with counters:
each operation answers as the history before it says, and the loads are the clears, the
entries and the puts over an entry together. Neighbours on different workers commute. -/
theorem refines_history (ops : List (Operation α)) :
    (∀ w a, held ops w = some a ↔
      ∃ before later, ops = before ++ .put w a :: later ∧
        ∀ op ∈ later, op ≠ .clear w ∧ ∀ b, op ≠ .put w b) ∧
    (empty : ScopeCache α).answers ops = (moments [] ops).map (fun m => m.2.answer m.1) ∧
    (empty.after ops).stats = tally ops ∧
    (tally ops).loads =
      (tally ops).clears + (tally ops).entries + count Operation.isPut true ops ∧
    ∀ before later a b v w, ops = before ++ a :: b :: later →
      a.worker? = some v → b.worker? = some w → v ≠ w →
        (∃ rs ra rb rs', rs.length = before.length ∧
          (empty : ScopeCache α).answers ops = rs ++ ra :: rb :: rs' ∧
          (empty : ScopeCache α).answers (before ++ b :: a :: later) = rs ++ rb :: ra :: rs') ∧
        let c : ScopeCache α := empty.after ops
        let c' : ScopeCache α := empty.after (before ++ b :: a :: later)
        c.entries.Perm c'.entries ∧ c.stats = c'.stats := by
  have htells := tells_after ops
  refine ⟨fun w a => ?_, answers_eq ops, htells.stats_eq, ?_, ?_⟩
  · simp only [held_eq_some_iff, Operation.changes_eq_false_iff]
  · rw [← htells.stats_eq]
    exact htells.balance
  · rintro before later a b v w rfl ha hb hvw
    exact ⟨answers_swap before later ha hb hvw, after_swap before later ha hb hvw⟩

/-- Two workers: a put over an entry, then a clear of one worker and a put of the other, in
either order. -/
theorem refines_history_two_workers :
    let v : WorkerId := ⟨1⟩
    let w : WorkerId := ⟨2⟩
    let before : List (Operation Nat) := [.put v 7, .get w, .put v 8]
    let later : List (Operation Nat) := [.get v, .size, .stats]
    let ops := before ++ .clear v :: .put w 9 :: later
    let ops' := before ++ .put w 9 :: .clear v :: later
    (Operation.clear v : Operation Nat).worker? = some v ∧
      (Operation.put w 9).worker? = some w ∧ v ≠ w ∧
      held ops w = some 9 ∧
      (empty : ScopeCache Nat).answers ops =
        [.done, .entry none, .done, .truth true, .done, .entry none, .number 1,
          .stats { hits := 0, misses := 2, loads := 3, clears := 1, entries := 1 }] ∧
      (∃ rs ra rb rs', rs.length = 3 ∧
        (empty : ScopeCache Nat).answers ops = rs ++ ra :: rb :: rs' ∧
        (empty : ScopeCache Nat).answers ops' = rs ++ rb :: ra :: rs') ∧
      ((empty : ScopeCache Nat).after ops).stats = ((empty : ScopeCache Nat).after ops').stats := by
  intro v w before later ops ops'
  obtain ⟨hheld, hanswers, -, -, hswap⟩ := refines_history ops
  have hvw : v ≠ w := by decide
  obtain ⟨hanswers', -, hstats⟩ := hswap before later _ _ v w rfl rfl rfl hvw
  refine ⟨rfl, rfl, hvw, ?_, hanswers.trans (by decide), hanswers', hstats⟩
  exact (hheld w 9).mpr ⟨before ++ [.clear v], later, rfl, by simp [later]⟩

end ScopedSettings.ScopeCache
