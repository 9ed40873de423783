/-
The balance of a cache: what was put in has been cleared, or is still there.

A cache has at most one entry for a worker, so a clear that is counted removes one
entry, and a load of a worker without one adds one. Hence the counters of loads and
clears drift apart by just the number of entries (`ScopeCache.Balanced`), as long as
nothing is put over an entry that is there. No act of a service but keeping a record
adds an entry.
-/
import ScopedSettings.Proofs.Service.Courses

namespace ScopedSettings

namespace ScopeCache

variable {α : Type} {c₀ c : ScopeCache α} {w : WorkerId}

theorem mem_without {entries : List (WorkerId × α)} {e : WorkerId × α} :
    e ∈ without entries w ↔ e ∈ entries ∧ e.1 ≠ w := by
  simp [without, List.mem_filter]

theorem peek?_eq_none_iff : c.peek? w = none ↔ ∀ e ∈ c.entries, e.1 ≠ w := by
  simp [peek?, List.find?_eq_none]

theorem contains_eq_true_iff : c.contains w = true ↔ ∃ e ∈ c.entries, e.1 = w := by
  simp [contains, peek?, List.find?_isSome]

theorem without_eq_self (h : c.peek? w = none) : without c.entries w = c.entries := by
  refine List.filter_eq_self.mpr fun e he => ?_
  simpa using peek?_eq_none_iff.mp h e he

theorem entries_clear (c : ScopeCache α) (w : WorkerId) :
    (c.clear w).2.entries = without c.entries w := by
  unfold clear
  split
  · rfl
  · rename_i hcontains
    refine (without_eq_self ?_).symm
    simpa [contains] using hcontains

theorem nodup_without {entries : List (WorkerId × α)} (h : (entries.map Prod.fst).Nodup) :
    ((without entries w).map Prod.fst).Nodup :=
  h.sublist (List.filter_sublist.map Prod.fst)

/-- Where keys are distinct, leaving out one of them leaves out one entry. -/
theorem length_without {entries : List (WorkerId × α)} (h : (entries.map Prod.fst).Nodup)
    (hw : ∃ e ∈ entries, e.1 = w) : (without entries w).length + 1 = entries.length := by
  induction entries with
  | nil =>
    obtain ⟨e, he, -⟩ := hw
    cases he
  | cons e entries ih =>
    obtain ⟨hnotin, hnodup⟩ := List.nodup_cons.mp h
    by_cases he : e.1 = w
    · have hrest : without entries w = entries := by
        refine List.filter_eq_self.mpr fun e' he' => ?_
        have hne : e'.1 ≠ w := by
          rintro rfl
          exact hnotin (he ▸ List.mem_map_of_mem he')
        simpa using hne
      have hcons : without (e :: entries) w = without entries w :=
        List.filter_cons_of_neg (by simp [he])
      rw [hcons, hrest]
      rfl
    · have hcons : without (e :: entries) w = e :: without entries w :=
        List.filter_cons_of_pos (by simp [he])
      obtain ⟨e', he', hw'⟩ := hw
      have hlater : ∃ e ∈ entries, e.1 = w := by
        rcases List.mem_cons.mp he' with rfl | he'
        · exact absurd hw' he
        · exact ⟨e', he', hw'⟩
      rw [hcons, List.length_cons, ih hnodup hlater]
      rfl

theorem nodup_put (h : (c.entries.map Prod.fst).Nodup) (w : WorkerId) (a : α) :
    ((c.put w a).entries.map Prod.fst).Nodup := by
  refine List.nodup_cons.mpr ⟨fun hmem => ?_, nodup_without h⟩
  obtain ⟨e, he, hfst⟩ := List.mem_map.mp hmem
  exact (mem_without.mp he).2 hfst

theorem size_put (h : (c.entries.map Prod.fst).Nodup) (w : WorkerId) (a : α) :
    (c.put w a).size + (if (c.peek? w).isSome then 1 else 0) = c.size + 1 := by
  change (without c.entries w).length + 1 + _ = c.entries.length + 1
  split
  · rename_i hw
    rw [← length_without h (contains_eq_true_iff.mp hw)]
  · rename_i hw
    rw [without_eq_self (by simpa using hw)]

theorem size_clear (h : (c.entries.map Prod.fst).Nodup) (w : WorkerId) :
    (c.clear w).2.size + (if (c.peek? w).isSome then 1 else 0) = c.size := by
  unfold size
  rw [entries_clear]
  split
  · rename_i hw
    exact length_without h (contains_eq_true_iff.mp hw)
  · rename_i hw
    rw [without_eq_self (by simpa using hw)]
    rfl

/-- A cache whose entries are those of one before it, and what has been loaded and not cleared
since then. -/
structure Balanced (c₀ c : ScopeCache α) : Prop where
  distinct : (c.entries.map Prod.fst).Nodup
  loads_le : c₀.loads ≤ c.loads
  balance : c.loads + c₀.clears + c₀.size = c₀.loads + c.clears + c.size

theorem Balanced.refl (h : (c.entries.map Prod.fst).Nodup) : Balanced c c :=
  ⟨h, Nat.le_refl _, rfl⟩

theorem Balanced.get (h : Balanced c₀ c) (w : WorkerId) : Balanced c₀ (c.get w).2 := by
  unfold ScopeCache.get
  split <;> exact ⟨h.distinct, h.loads_le, h.balance⟩

theorem Balanced.put (h : Balanced c₀ c) (hw : c.peek? w = none) (a : α) :
    Balanced c₀ (c.put w a) := by
  refine ⟨nodup_put h.distinct w a, Nat.le_succ_of_le h.loads_le, ?_⟩
  have hsize : (c.put w a).size = c.size + 1 := by simpa [hw] using size_put h.distinct w a
  have hbalance := h.balance
  change c.loads + 1 + c₀.clears + c₀.size = c₀.loads + c.clears + (c.put w a).size
  omega

theorem Balanced.clear (h : Balanced c₀ c) (w : WorkerId) : Balanced c₀ (c.clear w).2 := by
  unfold ScopeCache.clear
  split
  · rename_i hcontains
    have hlength := length_without h.distinct (contains_eq_true_iff.mp hcontains)
    refine ⟨nodup_without h.distinct, h.loads_le, ?_⟩
    change c.loads + c₀.clears + c₀.size =
      c₀.loads + (c.clears + 1) + (without c.entries w).length
    have hbalance := h.balance
    unfold size at hbalance ⊢
    omega
  · exact h

end ScopeCache

namespace Service

variable {β : Type} {c₀ : ScopeCache Settings} {r : Service β}

theorem balanced_notify (h : c₀.Balanced r.cache) (e : WriteEvent) :
    c₀.Balanced (r.notify e).cache := by
  refine notify_induction (P := fun r => c₀.Balanced r.cache) h ?_
  intro r l h
  cases l with
  | invalidation => exact h.clear e.writer
  | recorder name | growing name => exact h

theorem entries_notify_subset (r : Service β) (e : WriteEvent) :
    (r.notify e).cache.entries ⊆ r.cache.entries := by
  refine notify_induction (P := fun r' => r'.cache.entries ⊆ r.cache.entries)
    (List.Subset.refl _) ?_
  intro r' l h
  cases l with
  | invalidation =>
    change (r'.cache.clear e.writer).2.entries ⊆ r.cache.entries
    rw [ScopeCache.entries_clear]
    exact List.Subset.trans List.filter_sublist.subset h
  | recorder name | growing name => exact h

variable [Backend β]

/-- An act keeps the balance, unless it puts a record over an entry. -/
theorem balanced_carryOut (h : c₀.Balanced r.cache) {a : Act}
    (hkeep : ∀ w s, a = .keep w s → r.cache.peek? w = none) :
    c₀.Balanced (r.carryOut a).2.cache := by
  cases a with
  | lookUp w => exact h.get w
  | keep w s => exact h.put (hkeep w s rfl) s
  | forget w => exact h.clear w
  | notify e => exact balanced_notify h e
  | enroll | stats | fetch | commit u now | announce e => exact h

/-- Only keeping a record adds an entry. -/
theorem entries_carryOut_subset (r : Service β) {a : Act} (ha : ∀ w s, a ≠ .keep w s) :
    (r.carryOut a).2.cache.entries ⊆ r.cache.entries := by
  cases a with
  | keep w s => exact absurd rfl (ha w s)
  | lookUp w =>
    change (r.cache.get w).2.entries ⊆ r.cache.entries
    unfold ScopeCache.get
    split <;> exact List.Subset.refl _
  | forget w =>
    change (r.cache.clear w).2.entries ⊆ r.cache.entries
    rw [ScopeCache.entries_clear]
    exact List.filter_sublist.subset
  | notify e => exact r.entries_notify_subset e
  | enroll | stats | fetch | commit u now | announce e => exact List.Subset.refl _

end Service
end ScopedSettings
