/-
The scope cache: at most one entry per worker, and counters of what happened.

`get` is the only operation that counts hits and misses; `put` counts a load
even where it replaces an entry, and `clear` counts only where it removes one.

The counters are natural numbers: they go up by one with an operation, from zero, and no run
comes to the 2 ^ 64 operations at which a counter of a machine word would start over.
-/
import ScopedSettings.Cache.Stats
import ScopedSettings.Worker

namespace ScopedSettings

/-- Entries by worker, with the counters of the operations on them. -/
structure ScopeCache (α : Type) where
  entries : List (WorkerId × α) := []
  hits : Nat := 0
  misses : Nat := 0
  loads : Nat := 0
  clears : Nat := 0

namespace ScopeCache

/-- A cache without entries that nothing has happened to. -/
def empty : ScopeCache α := {}

/-- The entry of a worker, looked at without counting. -/
def peek? (c : ScopeCache α) (w : WorkerId) : Option α :=
  (c.entries.find? fun e => e.1 == w).map Prod.snd

/-- Has the worker an entry? -/
def contains (c : ScopeCache α) (w : WorkerId) : Bool :=
  (c.peek? w).isSome

/-- How many workers have an entry. -/
def size (c : ScopeCache α) : Nat :=
  c.entries.length

/-- Has no worker an entry? -/
def isEmpty (c : ScopeCache α) : Bool :=
  c.entries.isEmpty

def without (entries : List (WorkerId × α)) (w : WorkerId) : List (WorkerId × α) :=
  entries.filter fun e => !(e.1 == w)

/-- The entry of a worker; counts a hit or a miss. -/
def get (c : ScopeCache α) (w : WorkerId) : Option α × ScopeCache α :=
  match c.peek? w with
  | some a => (some a, { c with hits := c.hits + 1 })
  | none => (none, { c with misses := c.misses + 1 })

/-- Makes a value the worker's entry, in place of the one it may have; counts a load. -/
def put (c : ScopeCache α) (w : WorkerId) (a : α) : ScopeCache α :=
  { c with entries := (w, a) :: without c.entries w, loads := c.loads + 1 }

/-- Removes the worker's entry and says whether there was one; then counts a clear. -/
def clear (c : ScopeCache α) (w : WorkerId) : Bool × ScopeCache α :=
  if c.contains w then
    (true, { c with entries := without c.entries w, clears := c.clears + 1 })
  else (false, c)

def stats (c : ScopeCache α) : CacheStats :=
  { hits := c.hits, misses := c.misses, loads := c.loads, clears := c.clears, entries := c.size }

/-- The cache as diagnostics show it. -/
def inspect (c : ScopeCache α) : String :=
  "ScopeCache \x7b stats: " ++ c.stats.inspect ++ " \x7d"

/-! ## What the operations do to an entry -/

theorem find?_without_self (l : List (WorkerId × α)) (w : WorkerId) :
    (without l w).find? (fun e => e.1 == w) = none := by
  simp [without, List.find?_eq_none]

theorem find?_without_other (l : List (WorkerId × α)) {v w : WorkerId} (h : v ≠ w) :
    (without l w).find? (fun e => e.1 == v) = l.find? fun e => e.1 == v := by
  induction l with
  | nil => rfl
  | cons e l ih =>
    simp only [without] at ih ⊢
    by_cases hw : e.1 = w
    · subst hw
      have hv : (e.1 == v) = false := by simpa using fun he => h he.symm
      rw [List.filter_cons_of_neg (by simp), List.find?_cons, hv]
      exact ih
    · have hb : (e.1 == w) = false := by simpa using hw
      simp only [List.filter_cons, hb, Bool.not_false, List.find?_cons, if_true]
      split
      · rfl
      · exact ih

@[simp] theorem peek?_empty (w : WorkerId) : (empty : ScopeCache α).peek? w = none := rfl

@[simp] theorem peek?_get (c : ScopeCache α) (v w : WorkerId) :
    (c.get w).2.peek? v = c.peek? v := by
  unfold get; split <;> rfl

@[simp] theorem get_fst (c : ScopeCache α) (w : WorkerId) : (c.get w).1 = c.peek? w := by
  unfold get; split <;> simp_all

@[simp] theorem peek?_put_self (c : ScopeCache α) (w : WorkerId) (a : α) :
    (c.put w a).peek? w = some a := by
  simp [put, peek?]

@[simp] theorem peek?_put_other (c : ScopeCache α) {v w : WorkerId} (h : v ≠ w) (a : α) :
    (c.put w a).peek? v = c.peek? v := by
  have hb : (w == v) = false := by simpa using fun he => h he.symm
  simp only [put, peek?, List.find?_cons, hb]
  rw [find?_without_other _ h]

@[simp] theorem peek?_clear_self (c : ScopeCache α) (w : WorkerId) :
    (c.clear w).2.peek? w = none := by
  unfold clear
  split
  · simp [peek?, find?_without_self]
  · rename_i h; simpa [contains] using h

@[simp] theorem peek?_clear_other (c : ScopeCache α) {v w : WorkerId} (h : v ≠ w) :
    (c.clear w).2.peek? v = c.peek? v := by
  unfold clear
  split
  · simp only [peek?]; rw [find?_without_other _ h]
  · rfl

@[simp] theorem clear_fst (c : ScopeCache α) (w : WorkerId) : (c.clear w).1 = c.contains w := by
  unfold clear; split <;> simp_all

end ScopeCache
end ScopedSettings
