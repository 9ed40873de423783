/-
Requests leave no entry behind.

An entry that requests have made belongs to the worker of one of them, which has come
to its unit and not yet to the unit's end (`Stage.mayHold`, `Accounted`). The end of a
unit removes the entry if the unit's own committed write has not done so before, and a
record is only ever put where there is none; so the cache is balanced at every turn,
and once all requests are answered it is empty. A request puts one record at the most
(`Stage.mayLoad`), and where all calls to the backend return it is answered after ten
turns of its own (`Stage.left`).
-/
import ScopedSettings.Proofs.Cache.Balance
import ScopedSettings.Proofs.Http.Changes
import ScopedSettings.Proofs.Service.SideBySide

namespace ScopedSettings

variable {β α : Type}

/-- What an act adds to the loads that are counted: keeping a record adds one. -/
theorem Service.loads_carryOut [Backend β] (r : Service β) {a : Act}
    (ha : ∀ w s, a ≠ .keep w s) : (r.carryOut a).2.cache.loads = r.cache.loads := by
  cases a with
  | keep w s => exact absurd rfl (ha w s)
  | lookUp w =>
    change (r.cache.get w).2.loads = r.cache.loads
    unfold ScopeCache.get
    split <;> rfl
  | forget w =>
    change (r.cache.clear w).2.loads = r.cache.loads
    unfold ScopeCache.clear
    split <;> rfl
  | notify e =>
    have hfold (ls : List Listener) (r : Service β) :
        (ls.foldl (tell e) r).cache.loads = r.cache.loads := by
      induction ls generalizing r with
      | nil => rfl
      | cons l ls ih =>
        refine (ih (r.tell e l)).trans ?_
        cases l with
        | invalidation =>
          change (r.cache.clear e.writer).2.loads = r.cache.loads
          unfold ScopeCache.clear
          split <;> rfl
        | recorder name | growing name => rfl
    exact hfold r.listeners r
  | enroll | stats | fetch | commit u now | announce e => rfl

namespace Concourse

/-- The loads that are counted at the turns of a caller. -/
def loadsOf [Backend β] (c : Concourse β α) (i : Nat) : List Nat → Nat
  | [] => 0
  | j :: turns =>
    (if j = i then (c.turn j).service.cache.loads - c.service.cache.loads else 0) +
      (c.turn j).loadsOf i turns

theorem loadsOf_concat [Backend β] (c : Concourse β α) (i : Nat) (turns : List Nat) (j : Nat) :
    c.loadsOf i (turns ++ [j]) = c.loadsOf i turns +
      if j = i then
        ((c.after turns).turn j).service.cache.loads - (c.after turns).service.cache.loads
      else 0 := by
  induction turns generalizing c with
  | nil => exact Nat.add_comm _ 0
  | cons k turns ih =>
    rw [List.cons_append, loadsOf, loadsOf, ih, Nat.add_assoc]
    rfl

end Concourse

namespace Http

open Concourse

namespace Stage

/-- May there be an entry of the request's worker? -/
def mayHold : Stage → Bool
  | .writing _ _ _ | .telling _ _ _ | .announcing _ _ _ | .reading _ | .missed _
  | .ending _ _ => true
  | _ => false

/-- How many records the request may still put. -/
def mayLoad : Stage → Nat
  | .arrived _ _ | .emptying _ _ | .fetching _ _ | .keeping _ _ _ => 1
  | _ => 0

/-- How many acts there are left, at the most. -/
def left : Stage → Nat
  | .arrived _ _ => 10
  | .emptying _ _ => 9
  | .fetching _ _ => 8
  | .keeping _ _ _ => 7
  | .writing _ _ _ => 6
  | .telling _ _ _ => 5
  | .announcing _ _ _ => 4
  | .reading _ => 3
  | .missed _ => 2
  | .ending _ _ | .counting _ => 1
  | .answered _ _ | .replied _ => 0

theorem mayHold_begun (v : Visit) (now : Instant) : (begun v now).mayHold = true := by
  unfold begun
  cases taskOf v.request now <;> rfl

theorem mayLoad_begun (v : Visit) (now : Instant) : (begun v now).mayLoad = 0 := by
  unfold begun
  cases taskOf v.request now <;> rfl

theorem left_begun (v : Visit) (now : Instant) : (begun v now).left ≤ 6 := by
  unfold begun
  cases taskOf v.request now <;> simp [left]

/-- An entry may be there until it is forgotten. -/
theorem Leads.mayHold {st st' : Stage} {a : Act} (h : st.Leads a st') (hst : st.mayHold = true)
    (ha : ∀ w, a ≠ .forget w) : st'.mayHold = true := by
  cases h with
  | counted q | enrolled q now w | emptied v now | fetched v now s | unfetched v now
  | kept v now s => cases hst
  | ended v answer => exact absurd rfl (ha v.worker)
  | committed v u now s | uncommitted v u now answer | told v s now | announced v s now
  | found v answer | unfound v | refetched v answer => rfl

theorem Leads.mayLoad_le {st st' : Stage} {a : Act} (h : st.Leads a st') :
    st'.mayLoad ≤ st.mayLoad := by
  cases h with
  | unfetched v now | kept v now s =>
    rw [mayLoad_begun]
    exact Nat.zero_le 1
  | counted q | enrolled q now w | emptied v now | fetched v now s | committed v u now s
  | uncommitted v u now answer | told v s now | announced v s now | found v answer | unfound v
  | refetched v answer | ended v answer => exact Nat.le_refl _

/-- There is an act left fewer after each. -/
theorem Leads.left_lt {st st' : Stage} {a : Act} (h : st.Leads a st') : st'.left < st.left := by
  cases h with
  | unfetched v now | kept v now s =>
    exact Nat.lt_of_le_of_lt (left_begun v now) (by simp [left])
  | counted q | enrolled q now w | emptied v now | fetched v now s | committed v u now s
  | uncommitted v u now answer | told v s now | announced v s now | found v answer | unfound v
  | refetched v answer | ended v answer => simp [left]

theorem keeping_of_act? {st : Stage} {w : WorkerId} {s : Settings}
    (h : st.act? = some (.keep w s)) : ∃ v now, st = .keeping v now s ∧ v.worker = w := by
  cases st with
  | keeping v now s' =>
    cases h
    exact ⟨v, now, rfl, rfl⟩
  | _ => cases h

/-- A record is put by a request that may still put one, and then may not. -/
theorem mayLoad_onward [Backend β] {st : Stage} {a : Act} (hst : st.act? = some a)
    (r : Service β) :
    (r.carryOut a).2.cache.loads - r.cache.loads +
      (plan.onward st a (r.carryOut a).1).mayLoad ≤ st.mayLoad := by
  by_cases hkeep : ∃ w s, a = .keep w s
  · obtain ⟨w, s, rfl⟩ := hkeep
    obtain ⟨v, now, rfl, rfl⟩ := keeping_of_act? hst
    have hbegun : (plan.onward (.keeping v now s) (.keep v.worker s)
        (r.carryOut (.keep v.worker s)).1).mayLoad = 0 := mayLoad_begun v now
    have hloads : (r.carryOut (.keep v.worker s)).2.cache.loads = r.cache.loads + 1 := rfl
    rw [hbegun, hloads, Nat.add_sub_cancel_left]
    exact Nat.le_refl 1
  · rw [r.loads_carryOut fun w s ha => hkeep ⟨w, s, ha⟩, Nat.sub_self, Nat.zero_add]
    rcases onward_cases hst (r.carryOut a).1 with hsame | hleads
    · exact Nat.le_of_eq (congrArg mayLoad hsame)
    · exact hleads.mayLoad_le

end Stage

variable [Backend β] {c₀ : Concourse β Response} {turns : List Nat} {stages : Nat → Stage}
  {i j : Nat}

/-! ## Entries -/

/-- Requests after turns, with the entries they have made. -/
structure Accounted (c₀ : Concourse β Response) (turns : List Nat) (stages : Nat → Stage) :
    Prop where
  traffic : Traffic c₀ turns stages
  balanced : c₀.service.cache.Balanced (c₀.after turns).service.cache
  held : ∀ e ∈ (c₀.after turns).service.cache.entries,
    ∃ j, (stages j).worker? = some e.1 ∧ (stages j).mayHold = true
  loads (i : Nat) : c₀.loadsOf i turns + (stages i).mayLoad ≤ 1

theorem Accounted.idle (h : Accounted c₀ turns stages) (hact : (c₀.after turns).act? i = none) :
    Accounted c₀ (turns ++ [i]) stages := by
  have hafter : c₀.after (turns ++ [i]) = c₀.after turns := by
    rw [after_concat, turn_of_idle hact]
  refine ⟨h.traffic.idle hact, ?_, ?_, fun k => ?_⟩
  · rw [hafter]
    exact h.balanced
  · rw [hafter]
    exact h.held
  · rw [loadsOf_concat, turn_of_idle hact, Nat.sub_self, ite_self]
    exact h.loads k

/-- A record is put only where there is none. -/
theorem Accounted.peek?_of_keep (h : Accounted c₀ turns stages) {w : WorkerId} {s : Settings}
    (hst : (stages i).act? = some (.keep w s)) :
    (c₀.after turns).service.cache.peek? w = none := by
  obtain ⟨v, now, hstage, rfl⟩ := Stage.keeping_of_act? hst
  refine ScopeCache.peek?_eq_none_iff.mpr fun e he hw => ?_
  obtain ⟨j, hworker, hholds⟩ := h.held e he
  have hself : (stages i).worker? = some e.1 := by
    rw [hstage, hw]
    rfl
  obtain rfl := h.traffic.distinct hworker hself
  rw [hstage] at hholds
  cases hholds

/-- An entry that was there before a turn, of a request whose turn does not forget it, or of
another one. -/
theorem Accounted.still_held (h : Accounted c₀ turns stages) {a : Act}
    (hst : (stages i).act? = some a) {e : WorkerId × Settings}
    (he : e ∈ (c₀.after turns).service.cache.entries)
    (ha : (stages i).worker? = some e.1 → ∀ w, a ≠ .forget w)
    (answer : Service.Awaited a.Answer) :
    let stages' := Function.update stages i (plan.onward (stages i) a answer)
    ∃ j, (stages' j).worker? = some e.1 ∧ (stages' j).mayHold = true := by
  intro stages'
  obtain ⟨j, hworker, hholds⟩ := h.held e he
  refine ⟨j, ?_⟩
  by_cases hji : j = i
  · subst hji
    have hself : stages' j = plan.onward (stages j) a answer := Function.update_self _ _ _
    have henroll : a ≠ .enroll := by
      rintro rfl
      obtain ⟨q, now, harrived⟩ := arrived_of_enroll hst
      rw [harrived] at hholds
      cases hholds
    rw [hself]
    refine ⟨?_, ?_⟩
    · unfold Stage.worker?
      rw [caller?_onward hst henroll]
      exact hworker
    · rcases onward_cases hst answer with hsame | hleads
      · rw [hsame]
        exact hholds
      · exact hleads.mayHold hholds (ha hworker)
  · have hother : stages' j = stages j := Function.update_of_ne hji _ _
    rw [hother]
    exact ⟨hworker, hholds⟩

/-- After a turn every entry belongs to a request that may hold one. -/
theorem Accounted.held_turn (h : Accounted c₀ turns stages) {a : Act}
    (hst : (stages i).act? = some a) {e : WorkerId × Settings}
    (he : e ∈ ((c₀.after turns).service.carryOut a).2.cache.entries) :
    let stages' := Function.update stages i
      (plan.onward (stages i) a ((c₀.after turns).service.carryOut a).1)
    ∃ j, (stages' j).worker? = some e.1 ∧ (stages' j).mayHold = true := by
  intro stages'
  by_cases hforget : ∃ w, a = .forget w
  · obtain ⟨w, rfl⟩ := hforget
    have hleft : e ∈ ((c₀.after turns).service.cache.clear w).2.entries := he
    rw [ScopeCache.entries_clear, ScopeCache.mem_without] at hleft
    refine h.still_held hst hleft.1 (fun hworker => ?_) _
    cases (worker?_of_act? hst rfl).symm.trans hworker
    exact absurd rfl hleft.2
  by_cases hkeep : ∃ w s, a = .keep w s
  · obtain ⟨w, s, rfl⟩ := hkeep
    have hput : e ∈ (w, s) :: ScopeCache.without (c₀.after turns).service.cache.entries w := he
    rcases List.mem_cons.mp hput with rfl | hbefore
    · obtain ⟨v, now, hstage, rfl⟩ := Stage.keeping_of_act? hst
      have hself : stages' i = .begun v now := by
        change Function.update stages i _ i = _
        rw [Function.update_self, hstage]
        rfl
      refine ⟨i, ?_, ?_⟩ <;> rw [hself]
      · exact congrArg (Option.bind · Prod.snd) (caller?_begun v now)
      · exact Stage.mayHold_begun v now
    · exact h.still_held hst (ScopeCache.mem_without.mp hbefore).1 (fun _ _ => Act.noConfusion) _
  · refine h.still_held hst ?_ (fun _ w hw => hforget ⟨w, hw⟩) _
    exact (c₀.after turns).service.entries_carryOut_subset (fun w s ha => hkeep ⟨w, s, ha⟩) he

theorem Accounted.turn (h : Accounted c₀ turns stages) {a : Act}
    (hact : (c₀.after turns).act? i = some a) (hst : (stages i).act? = some a) :
    Accounted c₀ (turns ++ [i])
      (Function.update stages i
        (plan.onward (stages i) a ((c₀.after turns).service.carryOut a).1)) := by
  have hservice := service_turn hact
  refine ⟨h.traffic.turn hact hst, ?_, fun e he => ?_, fun k => ?_⟩
  · rw [after_concat, hservice]
    refine Service.balanced_carryOut h.balanced ?_
    rintro w s rfl
    exact h.peek?_of_keep hst
  · rw [after_concat, hservice] at he
    exact h.held_turn hst he
  · rw [loadsOf_concat, hservice]
    by_cases hki : i = k
    · subst hki
      rw [if_pos rfl, Function.update_self]
      have honward := Stage.mayLoad_onward hst (c₀.after turns).service
      have hbefore := h.loads i
      omega
    · rw [if_neg hki, Function.update_of_ne (Ne.symm hki), Nat.add_zero]
      exact h.loads k

theorem accounted_first {r : Service β} (hl : .invalidation ∈ r.listeners)
    (hempty : r.cache.entries = []) (requests : List (Request × Instant)) :
    Accounted (ofRequests r requests) [] (firstStages requests) := by
  refine ⟨traffic_first hl requests, ?_, ?_, fun i => ?_⟩
  · refine .refl ?_
    change (r.cache.entries.map Prod.fst).Nodup
    rw [hempty]
    exact List.nodup_nil
  · intro e he
    change e ∈ r.cache.entries at he
    rw [hempty] at he
    cases he
  · change 0 + (firstStages requests i).mayLoad ≤ 1
    rcases isNew_firstStages requests i with ⟨q, now, h⟩ | ⟨q, h⟩ | ⟨answer, h⟩ <;>
      simp [h, Stage.mayLoad]

/-- After all turns every request is at a stage of its own, and all entries are accounted for. -/
theorem exists_accounted {r : Service β} (hl : .invalidation ∈ r.listeners)
    (hempty : r.cache.entries = []) (requests : List (Request × Instant)) (turns : List Nat) :
    ∃ stages, IsAt plan ((ofRequests r requests).after turns) stages ∧
      Accounted (ofRequests r requests) turns stages ∧
        ∀ i, (stages i).subject? = (firstStages requests i).subject? := by
  refine exists_stages
    (I := fun turns stages => Accounted (ofRequests r requests) turns stages ∧
      ∀ i, (stages i).subject? = (firstStages requests i).subject?)
    (isAt_firstStages r requests) ⟨accounted_first hl hempty requests, fun i => rfl⟩
    (fun hact h => ⟨h.1.idle hact, h.2⟩) ?_ turns
  intro turns stages i a hact hst h
  refine ⟨h.1.turn hact hst, fun j => ?_⟩
  by_cases hji : j = i
  · subst hji
    rw [Function.update_self]
    exact (subject?_onward hst _).trans (h.2 j)
  · rw [Function.update_of_ne hji]
    exact h.2 j

theorem Stage.exists_subject_of_mayHold {st : Stage} (h : st.mayHold = true) :
    ∃ q, st.subject? = some q := by
  cases st with
  | writing v u now | telling v s now | announcing v s now | reading v | missed v
  | ending v answer => exact ⟨v.request, rfl⟩
  | counting q | arrived q now | emptying v now | fetching v now | keeping v now s
  | answered v answer | replied answer => cases h

theorem Stage.mayHold_of_answer? {st : Stage} {response : Response}
    (h : st.answer? = some response) : st.mayHold = false := by
  cases st with
  | answered v answer | replied answer => rfl
  | _ => cases h

/-- A request that may hold an entry is one of those that have come, and not answered. -/
theorem entries_eq_nil {r : Service β} {requests : List (Request × Instant)}
    (hat : IsAt plan ((ofRequests r requests).after turns) stages)
    (h : Accounted (ofRequests r requests) turns stages)
    (hsubject : ∀ i, (stages i).subject? = (firstStages requests i).subject?)
    (hanswered : ∀ i < requests.length,
      ∃ response, ((ofRequests r requests).after turns).answer? i = some response) :
    ((ofRequests r requests).after turns).service.cache.entries = [] := by
  refine List.eq_nil_iff_forall_not_mem.mpr fun e he => ?_
  obtain ⟨i, -, hholds⟩ := h.held e he
  have hi : i < requests.length := by
    obtain ⟨q, hq⟩ := Stage.exists_subject_of_mayHold hholds
    rw [hsubject] at hq
    by_contra hge
    unfold firstStages at hq
    rw [List.getElem?_eq_none (Nat.le_of_not_lt hge)] at hq
    cases hq
  obtain ⟨response, hresponse⟩ := hanswered i hi
  rw [Stage.mayHold_of_answer? (hat.answer?_eq hresponse)] at hholds
  cases hholds

/-! ## Answers -/

theorem Stage.left_eq_zero_iff {st : Stage} : st.left = 0 ↔ st.act? = none := by
  cases st <;> simp [left, act?]

theorem left_firstStages (requests : List (Request × Instant)) (i : Nat) :
    (firstStages requests i).left ≤ 10 := by
  rcases isNew_firstStages requests i with ⟨q, now, h⟩ | ⟨q, h⟩ | ⟨answer, h⟩ <;>
    simp [h, Stage.left]

/-- The courses of requests go on, each with an act left fewer for every turn it has had. -/
structure Attended (c : Concourse β Response) (n : Nat) (turns : List Nat)
    (stages : Nat → Stage) : Prop where
  isAt : IsAt plan c stages
  course {i : Nat} (hi : i < n) : ∃ course, c.course? i = some course
  left {i : Nat} (hi : i < n) : (stages i).left ≤ 10 - turns.count i

variable {c : Concourse β Response} {n : Nat}

omit [Backend β] in
/-- A request whose turn has no act is answered. -/
theorem Attended.left_eq_zero (h : Attended c n turns stages) (hact : c.act? i = none)
    (hi : i < n) : (stages i).left = 0 := by
  obtain ⟨course, hcourse⟩ := h.course hi
  cases course with
  | done answer => exact Stage.left_eq_zero_iff.mpr (h.isAt i _ hcourse).1
  | step call next =>
    unfold act? at hact
    rw [hcourse] at hact
    cases hact

theorem Attended.turn (hanswers : Backend.Answers β) (h : Attended c n turns stages) (i : Nat) :
    ∃ stages', Attended (c.turn i) n (turns ++ [i]) stages' := by
  have hcount (j : Nat) : 10 - turns.count j - (if i = j then 1 else 0) =
      10 - (turns ++ [i]).count j := by
    rw [List.count_append, List.count_singleton, Nat.sub_sub]
    by_cases hij : i = j <;> simp [hij]
  cases hact : c.act? i with
  | none =>
    rw [turn_of_idle hact]
    refine ⟨stages, h.isAt, h.course, fun {j} hj => ?_⟩
    by_cases hij : i = j
    · subst hij
      rw [h.left_eq_zero hact hj]
      exact Nat.zero_le _
    · rw [← hcount, if_neg hij]
      exact h.left hj
  | some a =>
    obtain ⟨⟨waited, x⟩, hanswer⟩ := Service.exists_answer hanswers c.service a
    have hat := h.isAt.turn hact
    refine ⟨_, hat, fun {j} hj => ?_, fun {j} hj => ?_⟩
    · by_cases hji : j = i
      · subst hji
        obtain ⟨call, next, hcourse, rfl⟩ := exists_step_of_act? hact
        rw [course?_turn_self hcourse, hanswer]
        exact ⟨_, rfl⟩
      · rw [course?_turn_other c hji]
        exact h.course hj
    · rw [← hcount]
      by_cases hji : j = i
      · subst hji
        have hless :
            (plan.onward (stages j) a (c.service.carryOut a).1).left < (stages j).left := by
          rw [hanswer]
          exact (leads_next (h.isAt.act?_eq hact) x).left_lt
        have hbefore := h.left hj
        rw [Function.update_self, if_pos rfl]
        omega
      · rw [Function.update_of_ne hji, if_neg (Ne.symm hji)]
        exact h.left hj

theorem exists_attended (hanswers : Backend.Answers β) (r : Service β)
    (requests : List (Request × Instant)) (turns : List Nat) :
    ∃ stages, Attended ((ofRequests r requests).after turns) requests.length turns stages := by
  induction turns using List.reverseRecOn with
  | nil =>
    refine ⟨_, isAt_firstStages r requests, fun {i} hi => ?_, fun _ => left_firstStages requests _⟩
    change ∃ course, (ofRequests r requests).course? i = some course
    unfold ofRequests
    rw [course?_ofCourses, List.getElem?_map, List.getElem?_eq_getElem hi]
    exact ⟨_, rfl⟩
  | append_singleton turns i ih =>
    obtain ⟨stages, h⟩ := ih
    rw [after_concat]
    exact h.turn hanswers i

/-- Where all calls return, a request is answered after ten turns of its own. -/
theorem exists_answer?_of_count (hanswers : Backend.Answers β) (r : Service β)
    {requests : List (Request × Instant)} (hi : i < requests.length)
    (hturns : 10 ≤ turns.count i) :
    ∃ response, ((ofRequests r requests).after turns).answer? i = some response := by
  obtain ⟨stages, h⟩ := exists_attended hanswers r requests turns
  have hleft : (stages i).left = 0 := by
    have hle := h.left hi
    omega
  obtain ⟨course, hcourse⟩ := h.course hi
  cases course with
  | done answer =>
    refine ⟨answer, ?_⟩
    unfold answer?
    rw [hcourse]
  | step call next =>
    have hact := (h.isAt i _ hcourse).1
    cases (Stage.left_eq_zero_iff.mp hleft).symm.trans hact

/-! ## Requests outside any unit -/

theorem Route.eq_of_of? {path : String} (h : Route.of? path = some .settings) :
    path = "/api/settings" := by
  unfold Route.of? at h
  split at h <;> first | rfl | cases h

theorem subject?_firstStages {requests : List (Request × Instant)} {q : Request} {now : Instant}
    (hq : requests[i]? = some (q, now)) (hpath : q.path ≠ "/api/settings") :
    (firstStages requests i).subject? = none := by
  unfold firstStages
  rw [hq]
  dsimp only [Option.map_some, Option.getD_some]
  unfold Stage.first
  split
  · rfl
  · split
    · rfl
    · rename_i hplace
      exact absurd (Route.eq_of_of? hplace) hpath
    · split <;> rfl
    · rfl

/-- A request that is not one to the settings reads the counters, if it does anything. -/
theorem Stage.act?_of_subject?_none {st : Stage} (h : st.subject? = none) {a : Act}
    (ha : st.act? = some a) : a = .stats := by
  cases st with
  | counting q =>
    cases ha
    rfl
  | replied answer => cases ha
  | _ => cases h

/-- Once all requests are answered, however their steps fall, the cache is empty again, with as
many clears counted as loads; and they are answered if all calls to the backend return. The
turns of a request add one load at the most, and those of a request that is not one to the
settings change nothing, and only read the counters. -/
theorem entries_gone {r : Service β} (hl : .invalidation ∈ r.listeners)
    (hempty : r.cache.entries = []) (requests : List (Request × Instant)) (turns : List Nat) :
    let c := ofRequests r requests
    let cache := (c.after turns).service.cache
    ((∀ i < requests.length, ∃ response, (c.after turns).answer? i = some response) →
        cache.entries = [] ∧
          ∃ n, cache.loads = r.cache.loads + n ∧ cache.clears = r.cache.clears + n) ∧
      (Backend.Answers β → (∀ i < requests.length, 10 ≤ turns.count i) →
        ∀ i < requests.length, ∃ response, (c.after turns).answer? i = some response) ∧
      (∀ i, c.loadsOf i turns ≤ 1) ∧
      ∀ i q now, requests[i]? = some (q, now) → q.path ≠ "/api/settings" →
        ((c.after turns).turn i).service = (c.after turns).service ∧
          ∀ a, (c.after turns).act? i = some a → a = .stats := by
  intro c cache
  obtain ⟨stages, hat, h, hsubject⟩ := exists_accounted hl hempty requests turns
  refine ⟨fun hanswered => ?_, fun hanswers hturns i hi => ?_, fun i => ?_, ?_⟩
  · have hgone : cache.entries = [] := entries_eq_nil hat h hsubject hanswered
    refine ⟨hgone, cache.loads - r.cache.loads, ?_⟩
    have hloads : r.cache.loads ≤ cache.loads := h.balanced.loads_le
    have hbalance : cache.loads + r.cache.clears + r.cache.size =
        r.cache.loads + cache.clears + cache.size := h.balanced.balance
    unfold ScopeCache.size at hbalance
    rw [hgone, hempty, List.length_nil] at hbalance
    omega
  · exact exists_answer?_of_count hanswers r hi (hturns i hi)
  · exact Nat.le_trans (Nat.le_add_right _ _) (h.loads i)
  · intro i q now hq hpath
    have hnone : (stages i).subject? = none :=
      (hsubject i).trans (subject?_firstStages hq hpath)
    have hstats (a : Act) (ha : (c.after turns).act? i = some a) : a = .stats :=
      Stage.act?_of_subject?_none hnone (hat.act?_eq ha)
    refine ⟨?_, hstats⟩
    cases hact : (c.after turns).act? i with
    | none => rw [turn_of_idle hact]
    | some a =>
      obtain rfl := hstats a hact
      exact service_turn hact

/-- A request for the cache's counters. -/
def readCounters : Request where
  method := "GET"
  target := "/api/settings/cache"

/-- A change, a look at the counters, and a change whose body breaks off. -/
def mixedRequests : List (Request × Instant) :=
  [(enableJira, .epoch), (readCounters, .epoch),
    ({ enableJira with body := "\x7b".toUTF8 }, .epoch)]

/-- The three requests, a step of each in every round. -/
def tenRounds : List Nat :=
  (List.replicate 10 [0, 1, 2]).flatten

theorem entries_gone_mixed :
    let cache := ((ofRequests Service.seeded mixedRequests).after tenRounds).service.cache
    .invalidation ∈ Service.seeded.listeners ∧ Service.seeded.cache.entries = [] ∧
      Backend.Answers MemoryStore ∧ (∀ i < mixedRequests.length, 10 ≤ tenRounds.count i) ∧
      cache.entries = [] ∧ ∃ n, cache.loads = 0 + n ∧ cache.clears = 0 + n := by
  intro cache
  have hl : .invalidation ∈ Service.seeded.listeners := List.mem_singleton_self _
  have hturns : ∀ i < mixedRequests.length, 10 ≤ tenRounds.count i := by decide
  have h := entries_gone hl rfl mixedRequests tenRounds
  exact ⟨hl, rfl, MemoryStore.answers, hturns, h.1 (h.2.1 MemoryStore.answers hturns)⟩

end Http
end ScopedSettings
