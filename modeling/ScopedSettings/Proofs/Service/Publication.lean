/-
Every committed write is published once: its listeners are told, then its observers.

A write goes from its commit to telling the listeners and on to sending its event, and
returns its record only then (`Writing`); nothing else publishes. This is kept through the
turns of an audience, caller by caller (`AllPlaced`).
-/
import ScopedSettings.Proofs.Service.Courses
import ScopedSettings.Proofs.Service.Listening

namespace ScopedSettings

open Service (eventOf)

/-! ## The stages of a write -/

namespace Course

/-- What is left of a write that has told its listeners. -/
def announcing (w : WorkerId) (s : Settings) (now : Instant) :
    Course (Except SettingsError Settings) :=
  .step ⟨.announce (eventOf w s now), []⟩ fun _ => .done (.ok s)

/-- What is left of a write that has been committed. -/
def telling (w : WorkerId) (s : Settings) (now : Instant) :
    Course (Except SettingsError Settings) :=
  .step ⟨.notify (eventOf w s now), []⟩ fun _ => announcing w s now

/-- What is left of a write by the answer to its commit. -/
def answered (w : WorkerId) (now : Instant) :
    Except SettingsError Settings → Course (Except SettingsError Settings)
  | .ok s => telling w s now
  | .error e => .done (.error e)

theorem write_cases (w : WorkerId) (u : Update) (now : Instant) :
    (∃ e, write w u now = .done (.error e)) ∨
      write w u now = .step ⟨.commit u now, []⟩ (answered w now) := by
  unfold write
  cases u.validate with
  | error e => exact .inl ⟨e, rfl⟩
  | ok _ =>
    refine .inr (congrArg (Procedure.step _) (funext fun answer => ?_))
    cases answer <;> rfl

end Course

/-- An act that neither commits nor publishes anything. -/
def Act.Quiet : Act → Prop
  | .commit _ _ | .notify _ | .announce _ => False
  | _ => True

theorem Act.Quiet.publishes_nothing {k : Act} (h : k.Quiet) :
    k.told? = none ∧ k.sent? = none := by
  cases k with
  | commit | notify | announce => exact h.elim
  | _ => exact ⟨rfl, rfl⟩

theorem Act.Quiet.commits_nothing {β : Type} [Backend β] {k : Act} (h : k.Quiet) (r : Service β) :
    r.made? k = none := by
  cases k with
  | commit => exact h.elim
  | _ => rfl

/-- How far a write has come, by the records it has committed, the events it has told listeners
of, and those it has sent to observers. -/
inductive Writing (w : WorkerId) (u : Update) (now : Instant) : List Settings → List WriteEvent →
    List WriteEvent → Standing (Except SettingsError Settings) → Prop
  | failed (e : SettingsError) : Writing w u now [] [] [] (.active (.done (.error e)))
  | first : Writing w u now [] [] [] (.active (.step ⟨.commit u now, []⟩ (Course.answered w now)))
  | waiting : Writing w u now [] [] [] .waiting
  | committed (s : Settings) : Writing w u now [s] [] [] (.active (Course.telling w s now))
  | told (s : Settings) :
    Writing w u now [s] [eventOf w s now] [] (.active (Course.announcing w s now))
  | returned (s : Settings) :
    Writing w u now [s] [eventOf w s now] [eventOf w s now] (.active (.done (.ok s)))
  | dropped {made : List Settings} (h : made.length ≤ 1) : Writing w u now made [] [] .dropped

/-- A write goes on from its commit by the backend's answer, or waits for it. -/
theorem Writing.after_commit {β : Type} [Backend β] (r : Service β) (w : WorkerId) (u : Update)
    (now : Instant) :
    Writing w u now (r.made? (.commit u now)).toList [] []
      (.onward (Course.answered w now) (r.carryOut (.commit u now)).1) := by
  change Writing w u now (Backend.commit r.backend u now).2.record?.toList [] []
    (.onward (Course.answered w now) (Service.await (Backend.commit r.backend u now).2))
  cases (Backend.commit r.backend u now).2 with
  | never => exact .waiting
  | after delay answer =>
    cases answer with
    | error e => exact .failed e
    | ok s => exact .committed s

/-- Has a caller committed and published what it should have where it stands? -/
inductive Caller.Placed : Caller → List Settings → List WriteEvent → List WriteEvent → Prop
  | writing {w : WorkerId} {u : Update} {now : Instant} {held : List WorkerId}
    {made : List Settings} {told sent : List WriteEvent}
    {st : Standing (Except SettingsError Settings)} (h : Writing w u now made told sent st) :
    Placed ⟨⟨.write w u now, held⟩, st⟩ made told sent
  | quiet {job : Job} {st : Standing job.Answer}
    (hjob : ∀ w u now, job.undertaking ≠ .write w u now)
    (h : ∀ rest, st = .active rest → Course.Only Act.Quiet rest) :
    Placed ⟨job, st⟩ [] [] []

theorem Undertaking.only_quiet {k : Undertaking} (h : ∀ w u now, k ≠ .write w u now) :
    Course.Only Act.Quiet k.course := by
  have lookUp (w : WorkerId) : Act.Quiet (.lookUp w) := trivial
  have forget (w : WorkerId) : Act.Quiet (.forget w) := trivial
  have keep (w : WorkerId) (s : Settings) : Act.Quiet (.keep w s) := trivial
  have fetch : Act.Quiet .fetch := trivial
  cases k with
  | write w u now => exact absurd rfl (h w u now)
  | enroll | stats => exact .act trivial
  | get w bypass => exact Course.only_get (lookUp w) fetch bypass
  | fetch => exact Course.only_fetch fetch
  | start w => exact Course.only_start (forget w) fetch (keep w)
  | finish w => exact Course.only_finish (forget w)

namespace Caller.Placed

variable {β : Type} {made : List Settings} {told sent : List WriteEvent}

/-- A caller that begins has committed and published nothing. -/
theorem begun (j : Job) : Placed ⟨j, .active j.undertaking.course⟩ [] [] [] := by
  obtain ⟨k, held⟩ := j
  by_cases h : ∃ w u now, k = .write w u now
  · obtain ⟨w, u, now, rfl⟩ := h
    refine .writing ?_
    change Writing w u now [] [] [] (.active (Course.write w u now))
    rcases Course.write_cases w u now with ⟨e, hcourse⟩ | hcourse
    · rw [hcourse]
      exact .failed e
    · rw [hcourse]
      exact .first
  · have hjob : ∀ w u now, k ≠ .write w u now := fun w u now heq => h ⟨w, u, now, heq⟩
    refine .quiet hjob ?_
    rintro rest ⟨⟩
    exact Undertaking.only_quiet hjob

theorem drop {c : Caller} (h : c.Placed made told sent) (hwaits : c.waits = true) :
    Placed ⟨c.job, .dropped⟩ made told sent := by
  cases h with
  | writing h =>
    cases h with
    | failed e => cases hwaits
    | first | waiting => exact .writing (.dropped (Nat.zero_le 1))
    | committed s => exact .writing (.dropped (Nat.le_refl 1))
    | told s => cases hwaits
    | returned s => cases hwaits
    | dropped h => exact .writing (.dropped h)
  | quiet hjob h => exact .quiet hjob nofun

/-- A caller that carries its next act out has committed and published what that act does. -/
theorem proceed [Backend β] {job : Job} {call : Call} {next : call.Answer → Course job.Answer}
    (h : Placed ⟨job, .active (.step call next)⟩ made told sent) (r : Service β) :
    Placed ⟨job, .onward next (r.carryOut call.act).1⟩ (made ++ (r.made? call.act).toList)
      (told ++ call.act.told?.toList) (sent ++ call.act.sent?.toList) := by
  cases h with
  | writing h =>
    cases h with
    | first => exact .writing (.after_commit r _ _ _)
    | committed s => exact .writing (.told s)
    | told s => exact .writing (.returned s)
  | quiet hjob h =>
    cases h _ rfl with
    | step hact hnext =>
      rw [hact.commits_nothing r, hact.publishes_nothing.1, hact.publishes_nothing.2]
      refine .quiet hjob fun rest hrest => ?_
      cases hanswer : (r.carryOut call.act).1 with
      | none =>
        rw [hanswer] at hrest
        cases hrest
      | some answer =>
        rw [hanswer] at hrest
        cases hrest
        exact hnext answer.2

/-- Nothing is sent that listeners have not been told of. -/
theorem sent_subset {c : Caller} (h : c.Placed made told sent) : sent ⊆ told := by
  cases h with
  | writing h =>
    cases h with
    | returned s => exact List.Subset.refl _
    | _ => exact List.nil_subset _
  | quiet => exact List.nil_subset _

end Caller.Placed

/-! ## The stages of all callers -/

section OfCaller

variable {γ : Type}

theorem ofCaller_append (i : Nat) (xs ys : List (Nat × γ)) :
    ofCaller i (xs ++ ys) = ofCaller i xs ++ ofCaller i ys := by
  simp [ofCaller]

theorem ofCaller_own (i : Nat) (o : Option γ) : ofCaller i (o.map (i, ·)).toList = o.toList := by
  cases o <;> simp [ofCaller]

theorem ofCaller_other {i j : Nat} (h : j ≠ i) (o : Option γ) :
    ofCaller i (o.map (j, ·)).toList = [] := by
  cases o <;> simp [ofCaller, h]

theorem mem_ofCaller {i : Nat} {x : γ} {xs : List (Nat × γ)} : x ∈ ofCaller i xs ↔ (i, x) ∈ xs := by
  simp [ofCaller]

end OfCaller

/-- Has each caller committed and published what it should have where it stands, and no one
else anything? -/
structure AllPlaced (cs : List Caller) (made : List (Nat × Settings))
    (told sent : List (Nat × WriteEvent)) : Prop where
  caller : ∀ {i : Nat} {c : Caller}, cs[i]? = some c →
    c.Placed (ofCaller i made) (ofCaller i told) (ofCaller i sent)
  nobody : ∀ {i : Nat}, cs[i]? = none →
    ofCaller i made = [] ∧ ofCaller i told = [] ∧ ofCaller i sent = []

namespace AllPlaced

variable {cs : List Caller} {made : List (Nat × Settings)} {told sent : List (Nat × WriteEvent)}

theorem begun (h : AllPlaced cs made told sent) (j : Job) :
    AllPlaced (cs ++ [⟨j, .active j.undertaking.course⟩]) made told sent := by
  constructor
  · intro i c hc
    rcases Nat.lt_trichotomy i cs.length with hlt | heq | hgt
    · rw [List.getElem?_append_left hlt] at hc
      exact h.caller hc
    · subst heq
      rw [List.getElem?_concat_length] at hc
      cases hc
      obtain ⟨hmade, htold, hsent⟩ := h.nobody (List.getElem?_eq_none (Nat.le_refl _))
      rw [hmade, htold, hsent]
      exact .begun j
    · rw [List.getElem?_eq_none (by rw [List.length_append]; exact hgt)] at hc
      cases hc
  · intro i hi
    rw [List.getElem?_eq_none_iff, List.length_append] at hi
    exact h.nobody (List.getElem?_eq_none (by omega))

/-- A caller that comes to stand elsewhere, having committed and published what it should
have there, leaves all others in place. -/
theorem set (h : AllPlaced cs made told sent) {i : Nat} {c c' : Caller} (hc : cs[i]? = some c)
    {m : Option Settings} {n s : Option WriteEvent}
    (hc' : c'.Placed (ofCaller i made ++ m.toList) (ofCaller i told ++ n.toList)
      (ofCaller i sent ++ s.toList)) :
    AllPlaced (cs.set i c') (made ++ (m.map (i, ·)).toList) (told ++ (n.map (i, ·)).toList)
      (sent ++ (s.map (i, ·)).toList) := by
  have hi : i < cs.length := List.getElem?_eq_some_iff.mp hc |>.1
  constructor
  · intro j d hd
    rw [ofCaller_append, ofCaller_append, ofCaller_append]
    by_cases hij : i = j
    · subst hij
      rw [List.getElem?_set_self hi] at hd
      cases hd
      rw [ofCaller_own, ofCaller_own, ofCaller_own]
      exact hc'
    · rw [List.getElem?_set_ne hij] at hd
      simp only [ofCaller_other hij, List.append_nil]
      exact h.caller hd
  · intro j hj
    have hij : i ≠ j := by
      rintro rfl
      rw [List.getElem?_set_self hi] at hj
      cases hj
    rw [List.getElem?_set_ne hij] at hj
    simp only [ofCaller_append, ofCaller_other hij, List.append_nil]
    exact h.nobody hj

theorem mem_told_of_mem_sent (h : AllPlaced cs made told sent) {i : Nat} {e : WriteEvent}
    (hsent : (i, e) ∈ sent) : (i, e) ∈ told := by
  rw [← mem_ofCaller] at hsent ⊢
  cases hi : cs[i]? with
  | none =>
    rw [(h.nobody hi).2.2] at hsent
    cases hsent
  | some c => exact (h.caller hi).sent_subset hsent

end AllPlaced

namespace Audience

variable {β ξ : Type} [Backend β] {change : ξ → β → β} {a : Audience β} {t : AudienceTurn ξ}
  {made : List (Nat × Settings)} {told sent : List (Nat × WriteEvent)}

theorem told_concat (change : ξ → β → β) (a : Audience β) (ts : List (AudienceTurn ξ))
    (t : AudienceTurn ξ) :
    a.told change (ts ++ [t]) = a.told change ts ++
      (((a.after change ts).telling? t).map fun τ => (τ.caller, τ.event)).toList := by
  unfold Audience.told
  rw [tellings_concat, List.map_append]
  cases (a.after change ts).telling? t <;> rfl

/-- What a turn does to the callers, by the record committed in it, the event told of and the
event sent. All that is kept through a run is kept by these four. -/
inductive Shift (r : Service β) (cs : List Caller) : List Caller → Option (Nat × Settings) →
    Option (Nat × WriteEvent) → Option (Nat × WriteEvent) → Prop
  | same : Shift r cs cs none none none
  | begun (j : Job) : Shift r cs (cs ++ [⟨j, .active j.undertaking.course⟩]) none none none
  | dropped {i : Nat} {c : Caller} (hc : cs[i]? = some c) (hwaits : c.waits = true) :
    Shift r cs (cs.set i ⟨c.job, .dropped⟩) none none none
  | act {i : Nat} {job : Job} {call : Call} {next : call.Answer → Course job.Answer}
    (hc : cs[i]? = some ⟨job, .active (.step call next)⟩) :
    Shift r cs (cs.set i ⟨job, .onward next (r.carryOut call.act).1⟩)
      ((r.made? call.act).map (i, ·)) (call.act.told?.map (i, ·)) (call.act.sent?.map (i, ·))

theorem shift_drop (a : Audience β) (i : Nat) :
    Shift a.service a.callers (a.drop i).callers none none none := by
  unfold drop
  split
  · rename_i c hc
    split
    · rename_i hwaits
      exact .dropped hc hwaits
    · exact .same
  · exact .same

theorem shift_turn (change : ξ → β → β) (a : Audience β) (t : AudienceTurn ξ) :
    Shift a.service a.callers (a.turn change t).callers (a.commitment? t)
      ((a.telling? t).map fun τ => (τ.caller, τ.event)) (a.announcement? t) := by
  unfold commitment? telling? announcement?
  cases ht : a.act? t with
  | none =>
    cases t with
    | act i =>
      change Shift a.service a.callers (a.proceed i).callers none none none
      rw [proceed_of_idle ht]
      exact .same
    | begin j => exact .begun j
    | drop i => exact shift_drop a i
    | register | subscribe | poll | outside => exact .same
  | some act =>
    obtain ⟨i, k⟩ := act
    obtain ⟨rfl, job, call, next, hc, rfl⟩ := act?_eq_some_iff.mp ht
    have hshift := Shift.act (r := a.service) hc
    change Shift a.service a.callers (a.proceed i).callers _ _ _
    rw [proceed_of_step hc]
    simpa [Function.comp_def] using hshift

/-- What a turn commits and publishes is what the callers should have afterwards. -/
theorem Shift.allPlaced {r : Service β} {cs cs' : List Caller} {m : Option (Nat × Settings)}
    {n s : Option (Nat × WriteEvent)} (hshift : Shift r cs cs' m n s)
    (h : AllPlaced cs made told sent) :
    AllPlaced cs' (made ++ m.toList) (told ++ n.toList) (sent ++ s.toList) := by
  cases hshift with
  | same => simpa using h
  | begun j => simpa using h.begun j
  | dropped hc hwaits =>
    have hdropped := (h.caller hc).drop hwaits
    exact h.set (m := none) (n := none) (s := none) hc (by simpa using hdropped)
  | act hc => exact h.set hc ((h.caller hc).proceed r)

/-- Whatever happens, each caller has committed and published what it should have. -/
theorem allPlaced_after (change : ξ → β → β) (a : Audience β) (h : a.callers = [])
    (ts : List (AudienceTurn ξ)) :
    AllPlaced (a.after change ts).callers (a.committed change ts) (a.told change ts)
      (a.announced change ts) := by
  induction ts using List.reverseRecOn with
  | nil =>
    change AllPlaced a.callers [] [] []
    rw [h]
    exact ⟨nofun, fun _ => ⟨rfl, rfl, rfl⟩⟩
  | append_singleton ts t ih =>
    rw [after_concat, committed_concat, told_concat, announced_concat]
    exact (shift_turn change _ t).allPlaced ih

end Audience
end ScopedSettings
