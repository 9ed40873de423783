/-
The order of publications that do not overlap.

While at most one caller at a time is between its commit and the end of its publication,
listeners are told of records in the order of their commits, and observers are sent the same
events in the same order (`Audience.InTurn.phase`). Where two writes overlap there, the one
that was committed first may be published last.
-/
import ScopedSettings.Proofs.Service.Publication

namespace ScopedSettings

open Service (eventOf)

/-- The records that events carry, with whose they are. -/
def recordsOf (told : List (Nat × WriteEvent)) : List (Nat × Settings) :=
  told.map fun x => (x.1, x.2.settings)

theorem recordsOf_concat (told : List (Nat × WriteEvent)) (i : Nat) (e : WriteEvent) :
    recordsOf (told ++ [(i, e)]) = recordsOf told ++ [(i, e.settings)] := by
  simp [recordsOf]

/-! ## One caller's step -/

theorem Act.Quiet.publishes_eq_false {k : Act} (h : k.Quiet) : k.publishes = false := by
  cases k with
  | commit | notify | announce => exact h.elim
  | _ => rfl

namespace Caller

/-- What a caller's act does to its publication, by the record committed, the event told of
and the event sent. -/
inductive Stride (k : Act) (c' : Caller) :
    Option Settings → Option WriteEvent → Option WriteEvent → Prop
  | quiet (hk : k.publishes = false) (hc' : c'.isPublishing = false) : Stride k c' none none none
  | commit {e : WriteEvent} (hk : k.publishes = false) (hc' : c'.next? = some (.notify e)) :
    Stride k c' (some e.settings) none none
  | tell {e : WriteEvent} (hk : k = .notify e) (hc' : c'.next? = some (.announce e)) :
    Stride k c' none (some e) none
  | send {e : WriteEvent} (hk : k = .announce e) (hc' : c'.isPublishing = false) :
    Stride k c' none none (some e)

theorem isPublishing_of_next? {c : Caller} {k : Act} (h : c.next? = some k) :
    c.isPublishing = k.publishes := by
  unfold isPublishing
  rw [h]
  rfl

/-- From telling its listeners to sending its event, a caller does not wait. -/
theorem waits_of_announce {c : Caller} {e : WriteEvent} (h : c.next? = some (.announce e)) :
    c.waits = false := by
  obtain ⟨job, standing⟩ := c
  cases standing with
  | active rest =>
    unfold waits
    rw [h]
  | waiting | dropped => cases h

theorem isPublishing_of_only {job : Job} {rest : Course job.Answer}
    (h : Course.Only Act.Quiet rest) : (⟨job, .active rest⟩ : Caller).isPublishing = false := by
  cases h with
  | done x => rfl
  | step hact hnext => exact hact.publishes_eq_false

/-- A caller that has committed nothing is not publishing. -/
theorem Placed.at_rest {c : Caller} {told sent : List WriteEvent} (h : c.Placed [] told sent) :
    c.isPublishing = false := by
  cases h with
  | writing h => cases h <;> rfl
  | @quiet job st hjob h =>
    cases st with
    | active rest => exact isPublishing_of_only (h rest rfl)
    | waiting | dropped => rfl

theorem stride_commit {β : Type} [Backend β] (r : Service β) (w : WorkerId) (u : Update)
    (now : Instant) (held : List WorkerId) :
    Stride (.commit u now)
      ⟨⟨.write w u now, held⟩,
        .onward (Course.answered w now) (r.carryOut (.commit u now)).1⟩
      (r.made? (.commit u now)) none none := by
  change Stride (.commit u now)
    ⟨⟨.write w u now, held⟩,
      .onward (Course.answered w now) (Service.await (Backend.commit r.backend u now).2)⟩
    (Backend.commit r.backend u now).2.record? none none
  cases (Backend.commit r.backend u now).2 with
  | never => exact .quiet rfl rfl
  | after delay answer =>
    cases answer with
    | error e => exact .quiet rfl rfl
    | ok s => exact .commit (e := eventOf w s now) rfl rfl

variable {β : Type} {made : List Settings} {told sent : List WriteEvent}

theorem Placed.stride [Backend β] {job : Job} {call : Call} {next : call.Answer → Course job.Answer}
    (h : Placed ⟨job, .active (.step call next)⟩ made told sent) (r : Service β) :
    Stride call.act ⟨job, .onward next (r.carryOut call.act).1⟩ (r.made? call.act) call.act.told?
      call.act.sent? := by
  cases h with
  | writing h =>
    cases h with
    | first => exact stride_commit r _ _ _ _
    | committed s => exact .tell rfl rfl
    | told s => exact .send rfl rfl
  | quiet hjob h =>
    cases h _ rfl with
    | step hact hnext =>
      rw [hact.commits_nothing r, hact.publishes_nothing.1, hact.publishes_nothing.2]
      refine .quiet hact.publishes_eq_false ?_
      cases (r.carryOut call.act).1 with
      | none => rfl
      | some answer => exact isPublishing_of_only (hnext answer.2)

end Caller

/-! ## One publication at a time -/

/-- How far the publication under way has come, if there is one. -/
inductive Phase (cs : List Caller) (made : List (Nat × Settings))
    (told sent : List (Nat × WriteEvent)) : Prop
  | resting (hnone : ∀ {i : Nat} {c : Caller}, cs[i]? = some c → c.isPublishing = false)
    (htold : told = sent) (hmade : (recordsOf told).Sublist made)
  | telling {i : Nat} {c : Caller} {e : WriteEvent} (hc : cs[i]? = some c)
    (hnext : c.next? = some (.notify e)) (htold : told = sent)
    (hmade : (recordsOf told ++ [(i, e.settings)]).Sublist made)
  | sending {i : Nat} {c : Caller} {e : WriteEvent} (hc : cs[i]? = some c)
    (hnext : c.next? = some (.announce e)) (htold : told = sent ++ [(i, e)])
    (hmade : (recordsOf told).Sublist made)

/-- Is at most one of the callers publishing? -/
def OneAtATime (cs : List Caller) : Prop :=
  cs.countP Caller.isPublishing ≤ 1

theorem OneAtATime.eq {cs : List Caller} (h : OneAtATime cs) {i j : Nat} {c d : Caller}
    (hc : cs[i]? = some c) (hd : cs[j]? = some d) (hcp : c.isPublishing = true)
    (hdp : d.isPublishing = true) : i = j := by
  induction cs generalizing i j with
  | nil => cases hc
  | cons b cs ih =>
    have hcount : cs.countP Caller.isPublishing + (if b.isPublishing then 1 else 0) ≤ 1 := by
      rw [← List.countP_cons]
      exact h
    have hpos {k : Nat} {x : Caller} (hx : cs[k]? = some x) (hxp : x.isPublishing = true) :
        0 < cs.countP Caller.isPublishing :=
      List.countP_pos_iff.mpr ⟨x, List.mem_of_getElem? hx, hxp⟩
    cases i with
    | zero =>
      cases j with
      | zero => rfl
      | succ j =>
        cases hc
        rw [if_pos hcp] at hcount
        have hd' := hpos hd hdp
        omega
    | succ i =>
      cases j with
      | zero =>
        cases hd
        rw [if_pos hdp] at hcount
        have hc' := hpos hc hcp
        omega
      | succ j => exact congrArg (· + 1) (ih (by unfold OneAtATime; omega) hc hd)

theorem OneAtATime.same {cs : List Caller} (h : OneAtATime cs) {i j : Nat} {c d : Caller}
    {k l : Act} (hc : cs[i]? = some c) (hd : cs[j]? = some d) (hcnext : c.next? = some k)
    (hdnext : d.next? = some l) (hk : k.publishes = true) (hl : l.publishes = true) :
    i = j ∧ k = l := by
  have hij := h.eq hc hd ((Caller.isPublishing_of_next? hcnext).trans hk)
    ((Caller.isPublishing_of_next? hdnext).trans hl)
  subst hij
  rw [hc] at hd
  cases hd
  rw [hcnext] at hdnext
  exact ⟨rfl, Option.some.inj hdnext⟩

namespace Phase

variable {cs : List Caller} {made : List (Nat × Settings)} {told sent : List (Nat × WriteEvent)}

theorem ordered (h : Phase cs made told sent) :
    (recordsOf told).Sublist made ∧ sent <+: told ∧ told.length ≤ sent.length + 1 := by
  cases h with
  | resting hnone htold hmade =>
    subst htold
    exact ⟨hmade, List.prefix_rfl, Nat.le_succ _⟩
  | telling hc hnext htold hmade =>
    subst htold
    exact ⟨(List.sublist_append_left _ _).trans hmade, List.prefix_rfl, Nat.le_succ _⟩
  | sending hc hnext htold hmade =>
    subst htold
    exact ⟨hmade, List.prefix_append _ _, by simp⟩

theorem begun (h : Phase cs made told sent) (j : Job) :
    Phase (cs ++ [⟨j, .active j.undertaking.course⟩]) made told sent := by
  cases h with
  | resting hnone htold hmade =>
    refine .resting (fun {i c} hc => ?_) htold hmade
    rcases List.mem_append.mp (List.mem_of_getElem? hc) with hold | hnew
    · obtain ⟨k, hk⟩ := List.getElem?_of_mem hold
      exact hnone hk
    · rw [List.mem_singleton.mp hnew]
      exact (Caller.Placed.begun j).at_rest
  | telling hc hnext htold hmade =>
    exact .telling (List.getElem?_append_left (List.getElem?_eq_some_iff.mp hc).1 ▸ hc) hnext htold
      hmade
  | sending hc hnext htold hmade =>
    exact .sending (List.getElem?_append_left (List.getElem?_eq_some_iff.mp hc).1 ▸ hc) hnext htold
      hmade

theorem lt_length {i : Nat} {c : Caller} (hc : cs[i]? = some c) : i < cs.length :=
  (List.getElem?_eq_some_iff.mp hc).1

/-- Once the only caller that was publishing no longer is, none is. -/
theorem none_after (hone : OneAtATime cs) {i : Nat} {c c' : Caller} (hc : cs[i]? = some c)
    (hcp : c.isPublishing = true) (hc' : c'.isPublishing = false) {j : Nat} {d : Caller}
    (hd : (cs.set i c')[j]? = some d) : d.isPublishing = false := by
  by_cases hij : i = j
  · subst hij
    rw [List.getElem?_set_self (lt_length hc)] at hd
    cases hd
    exact hc'
  · rw [List.getElem?_set_ne hij] at hd
    by_contra hdp
    exact hij (hone.eq hc hd hcp (Bool.not_eq_false _ ▸ hdp))

/-- A caller that is publishing neither before nor after makes no difference. -/
theorem set_quiet (h : Phase cs made told sent) {i : Nat} {c c' : Caller} (hc : cs[i]? = some c)
    (hcp : c.isPublishing = false) (hc' : c'.isPublishing = false) :
    Phase (cs.set i c') made told sent := by
  have hkeep {j : Nat} {d : Caller} {k : Act} (hd : cs[j]? = some d) (hnext : d.next? = some k)
      (hk : k.publishes = true) : (cs.set i c')[j]? = some d := by
    rw [List.getElem?_set_ne, hd]
    rintro rfl
    rw [hc] at hd
    cases hd
    rw [Caller.isPublishing_of_next? hnext, hk] at hcp
    cases hcp
  cases h with
  | resting hnone htold hmade =>
    refine .resting (fun {j d} hd => ?_) htold hmade
    by_cases hij : i = j
    · subst hij
      rw [List.getElem?_set_self (lt_length hc)] at hd
      cases hd
      exact hc'
    · rw [List.getElem?_set_ne hij] at hd
      exact hnone hd
  | telling hd hnext htold hmade => exact .telling (hkeep hd hnext rfl) hnext htold hmade
  | sending hd hnext htold hmade => exact .sending (hkeep hd hnext rfl) hnext htold hmade

/-- A caller that is dropped publishes no more, and was not between its listeners and its
observers. -/
theorem dropped (h : Phase cs made told sent) (hone : OneAtATime cs) {i : Nat} {c : Caller}
    (hc : cs[i]? = some c) (hwaits : c.waits = true) :
    Phase (cs.set i ⟨c.job, .dropped⟩) made told sent := by
  cases hcp : c.isPublishing with
  | false => exact h.set_quiet hc hcp rfl
  | true =>
    have hnone {j : Nat} {d : Caller} (hd : (cs.set i ⟨c.job, .dropped⟩)[j]? = some d) :
        d.isPublishing = false := none_after hone hc hcp rfl hd
    cases h with
    | resting hnone' htold hmade => exact .resting hnone htold hmade
    | telling hd hnext htold hmade =>
      exact .resting hnone htold ((List.sublist_append_left _ _).trans hmade)
    | sending hd hnext htold hmade =>
      have hdp := Caller.isPublishing_of_next? hnext
      cases hone.eq hc hd hcp hdp
      rw [hc] at hd
      cases hd
      rw [Caller.waits_of_announce hnext] at hwaits
      cases hwaits

theorem resting_of_none (h : Phase cs made told sent)
    (hnone : ∀ {i : Nat} {c : Caller}, cs[i]? = some c → c.isPublishing = false) :
    told = sent ∧ (recordsOf told).Sublist made := by
  cases h with
  | resting _ htold hmade => exact ⟨htold, hmade⟩
  | telling hc hnext _ _ | sending hc hnext _ _ =>
    have hcp := Caller.isPublishing_of_next? hnext
    rw [hnone hc] at hcp
    cases hcp

theorem telling_of_next? (h : Phase cs made told sent) (hone : OneAtATime cs) {i : Nat}
    {c : Caller} {e : WriteEvent} (hc : cs[i]? = some c) (hnext : c.next? = some (.notify e)) :
    told = sent ∧ (recordsOf told ++ [(i, e.settings)]).Sublist made := by
  cases h with
  | resting hnone _ _ =>
    have hcp := Caller.isPublishing_of_next? hnext
    rw [hnone hc] at hcp
    cases hcp
  | telling hd hdnext htold hmade =>
    obtain ⟨rfl, ⟨⟩⟩ := hone.same hc hd hnext hdnext rfl rfl
    exact ⟨htold, hmade⟩
  | sending hd hdnext htold hmade =>
    obtain ⟨-, ⟨⟩⟩ := hone.same hc hd hnext hdnext rfl rfl

theorem sending_of_next? (h : Phase cs made told sent) (hone : OneAtATime cs) {i : Nat}
    {c : Caller} {e : WriteEvent} (hc : cs[i]? = some c) (hnext : c.next? = some (.announce e)) :
    told = sent ++ [(i, e)] ∧ (recordsOf told).Sublist made := by
  cases h with
  | resting hnone _ _ =>
    have hcp := Caller.isPublishing_of_next? hnext
    rw [hnone hc] at hcp
    cases hcp
  | telling hd hdnext htold hmade =>
    obtain ⟨-, ⟨⟩⟩ := hone.same hc hd hnext hdnext rfl rfl
  | sending hd hdnext htold hmade =>
    obtain ⟨rfl, ⟨⟩⟩ := hone.same hc hd hnext hdnext rfl rfl
    exact ⟨htold, hmade⟩

/-- One publication goes from its commit to its listeners and on to its observers before
another comes to its commit. -/
theorem stride (h : Phase cs made told sent) {i : Nat} {c c' : Caller} {k : Act}
    {m : Option Settings} {n s : Option WriteEvent} (hone : OneAtATime cs)
    (hone' : OneAtATime (cs.set i c')) (hc : cs[i]? = some c) (hnext : c.next? = some k)
    (hstride : Caller.Stride k c' m n s) :
    Phase (cs.set i c') (made ++ (m.map (i, ·)).toList) (told ++ (n.map (i, ·)).toList)
      (sent ++ (s.map (i, ·)).toList) := by
  have hcp := Caller.isPublishing_of_next? hnext
  have hself : (cs.set i c')[i]? = some c' := List.getElem?_set_self (lt_length hc)
  cases hstride with
  | quiet hk hc' => simpa using h.set_quiet hc (hcp.trans hk) hc'
  | @commit e hk hc' =>
    -- only this caller is publishing afterwards, so that none was before
    have hnone {j : Nat} {d : Caller} (hd : cs[j]? = some d) : d.isPublishing = false := by
      by_contra hdp
      have hij : i ≠ j := by
        rintro rfl
        rw [hc] at hd
        cases hd
        exact hdp (hcp.trans hk)
      have hd' : (cs.set i c')[j]? = some d := (List.getElem?_set_ne hij).trans hd
      exact hij (hone'.eq hself hd' (Caller.isPublishing_of_next? hc') (Bool.not_eq_false _ ▸ hdp))
    obtain ⟨htold, hmade⟩ := h.resting_of_none hnone
    refine .telling hself hc' ?_ ?_
    · simpa using htold
    · simpa using hmade.append_right [(i, e.settings)]
  | @tell e hk hc' =>
    subst hk
    obtain ⟨htold, hmade⟩ := h.telling_of_next? hone hc hnext
    refine .sending hself hc' ?_ ?_
    · simp [htold]
    · simpa [recordsOf_concat] using hmade
  | @send e hk hc' =>
    subst hk
    obtain ⟨htold, hmade⟩ := h.sending_of_next? hone hc hnext
    refine .resting (none_after hone hc hcp hc') ?_ ?_
    · simpa using htold
    · simpa using hmade

end Phase

/-! ## Runs -/

namespace Audience

variable {β ξ : Type} [Backend β] {change : ξ → β → β} {a : Audience β}
  {made : List (Nat × Settings)} {told sent : List (Nat × WriteEvent)}

/-- Is there at no moment of a run more than one caller publishing? -/
def InTurn (change : ξ → β → β) (a : Audience β) (ts : List (AudienceTurn ξ)) : Prop :=
  ∀ p, p <+: ts → OneAtATime (a.after change p).callers

theorem Shift.phase {r : Service β} {cs cs' : List Caller} {m : Option (Nat × Settings)}
    {n s : Option (Nat × WriteEvent)} (hshift : Shift r cs cs' m n s)
    (hplaced : AllPlaced cs made told sent) (hone : OneAtATime cs) (hone' : OneAtATime cs')
    (h : Phase cs made told sent) :
    Phase cs' (made ++ m.toList) (told ++ n.toList) (sent ++ s.toList) := by
  cases hshift with
  | same => simpa using h
  | begun j => simpa using h.begun j
  | dropped hc hwaits => simpa using h.dropped hone hc hwaits
  | act hc => exact h.stride hone hone' hc rfl ((hplaced.caller hc).stride r)

/-- Where publications do not overlap, one phase follows another. -/
theorem InTurn.phase (ha : a.callers = []) {ts : List (AudienceTurn ξ)}
    (h : a.InTurn change ts) :
    Phase (a.after change ts).callers (a.committed change ts) (a.told change ts)
      (a.announced change ts) := by
  induction ts using List.reverseRecOn with
  | nil =>
    change Phase a.callers [] [] []
    rw [ha]
    exact .resting nofun rfl (List.Sublist.refl _)
  | append_singleton ts t ih =>
    have hbefore : OneAtATime (a.after change ts).callers := h ts (List.prefix_append _ _)
    have hafter := h (ts ++ [t]) List.prefix_rfl
    rw [after_concat] at hafter
    rw [after_concat, committed_concat, told_concat, announced_concat]
    have hphase := ih fun p hp => h p (hp.trans (List.prefix_append _ _))
    exact (shift_turn change _ t).phase (allPlaced_after change a ha ts) hbefore hafter hphase

end Audience
end ScopedSettings
