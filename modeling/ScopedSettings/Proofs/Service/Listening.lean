/-
What listeners note, and what turns do to a service.

Told of an event, each listener there was notes it once, and those that it registers come
after them all (`Service.heard_notify`, `Service.listeners_notify`). No other act touches
notes or listeners, and none but an announcement the channel, so that these follow from the
tellings and announcements of a run (`Audience.heard_after`, `Audience.channel_after`).
-/
import Mathlib.Data.List.Induction
import ScopedSettings.Proofs.Store.Channel
import ScopedSettings.Service.Audience

namespace ScopedSettings

/-! ## Being told -/

/-- The listener that a listener registers when it is told. -/
def Listener.grown? : Listener → Option Listener
  | .growing name => some (.recorder (name ++ "+"))
  | .invalidation | .recorder _ => none

namespace Service

variable {β : Type}

theorem heard_concat (r : Service β) (n : Note) (name : String) :
    heard { r with notes := r.notes ++ [n] } name =
      r.heard name ++ if n.listener == name then [n.event] else [] := by
  simp only [heard, List.filter_append, List.map_append]
  cases h : n.listener == name <;> simp [h]

theorem heard_tell (r : Service β) (e : WriteEvent) (l : Listener) (name : String) :
    (r.tell e l).heard name = r.heard name ++ List.replicate (Listener.named name [l]) e := by
  cases l with
  | invalidation => exact (List.append_nil _).symm
  | recorder other | growing other =>
    refine (heard_concat r ⟨other, r.cache.contains e.writer, e⟩ name).trans ?_
    congr 1
    by_cases h : other = name
    · subst h
      simp [Listener.named, Listener.name?]
    · simp [Listener.named, Listener.name?, h]

theorem heard_foldl_tell (ls : List Listener) (e : WriteEvent) (r : Service β) (name : String) :
    (ls.foldl (tell e) r).heard name =
      r.heard name ++ List.replicate (Listener.named name ls) e := by
  induction ls generalizing r with
  | nil => exact (List.append_nil _).symm
  | cons l ls ih =>
    have hnamed : Listener.named name (l :: ls) =
        Listener.named name [l] + Listener.named name ls := by
      unfold Listener.named
      rw [← List.countP_append]
      rfl
    rw [List.foldl_cons, ih, heard_tell, hnamed, List.append_assoc, List.replicate_append_replicate]

/-- Every listener there was notes the event, once for each time it is registered. -/
theorem heard_notify (r : Service β) (e : WriteEvent) (name : String) :
    (r.notify e).heard name =
      r.heard name ++ List.replicate (Listener.named name r.listeners) e :=
  heard_foldl_tell r.listeners e r name

theorem listeners_foldl_tell (ls : List Listener) (e : WriteEvent) (r : Service β) :
    (ls.foldl (tell e) r).listeners = r.listeners ++ ls.filterMap Listener.grown? := by
  induction ls generalizing r with
  | nil => exact (List.append_nil _).symm
  | cons l ls ih =>
    rw [List.foldl_cons, ih]
    cases l with
    | invalidation | recorder name => rfl
    | growing name => simp [tell, Listener.grown?]

/-- Those registered by listeners that are told come after all others. -/
theorem listeners_notify (r : Service β) (e : WriteEvent) :
    (r.notify e).listeners = r.listeners ++ r.listeners.filterMap Listener.grown? :=
  listeners_foldl_tell r.listeners e r

theorem channel_foldl_tell (ls : List Listener) (e : WriteEvent) (r : Service β) :
    (ls.foldl (tell e) r).channel = r.channel := by
  induction ls generalizing r with
  | nil => rfl
  | cons l ls ih =>
    rw [List.foldl_cons, ih]
    cases l <;> rfl

end Service

/-! ## Turns -/

namespace Audience

variable {β γ ξ : Type} [Backend β] {change : ξ → β → β} {a : Audience β} {t : AudienceTurn ξ}

omit [Backend β] in
theorem act?_eq_some_iff {i : Nat} {k : Act} :
    a.act? t = some (i, k) ↔ t = .act i ∧
      ∃ job call next, a.callers[i]? = some ⟨job, .active (.step call next)⟩ ∧ call.act = k := by
  constructor
  · intro h
    cases t with
    | act j =>
      obtain ⟨k', hk, heq⟩ := Option.map_eq_some_iff.mp h
      cases heq
      obtain ⟨⟨job, standing⟩, hc, hnext⟩ := Option.bind_eq_some_iff.mp hk
      cases standing with
      | active rest =>
        cases rest with
        | done x => cases hnext
        | step call next =>
          cases hnext
          exact ⟨rfl, job, call, next, hc, rfl⟩
      | waiting | dropped => cases hnext
    | _ => cases h
  · rintro ⟨rfl, job, call, next, hc, rfl⟩
    simp [act?, hc, Caller.next?]

theorem proceed_of_step {i : Nat} {job : Job} {call : Call} {next : call.Answer → Course job.Answer}
    (h : a.callers[i]? = some ⟨job, .active (.step call next)⟩) :
    a.proceed i =
      { a with
        service := (a.service.carryOut call.act).2
        callers := a.callers.set i ⟨job, .onward next (a.service.carryOut call.act).1⟩ } := by
  unfold proceed
  rw [h]

/-- The service after a turn that carries an act out. -/
theorem service_of_act {i : Nat} {k : Act} (h : a.act? t = some (i, k)) :
    (a.turn change t).service = (a.service.carryOut k).2 := by
  obtain ⟨rfl, job, call, next, hc, rfl⟩ := act?_eq_some_iff.mp h
  change (a.proceed i).service = _
  rw [proceed_of_step hc]

/-- A turn of a caller that has no act to carry out leaves everything. -/
theorem proceed_of_idle {i : Nat} (h : a.act? (.act i : AudienceTurn ξ) = none) :
    a.proceed i = a := by
  unfold proceed
  split
  · rename_i job call next hc
    rw [act?_eq_some_iff.mpr ⟨rfl, job, call, next, hc, rfl⟩] at h
    cases h
  · rfl

/-- Turns that carry no act out touch neither notes nor channel, and take no listener away. -/
theorem service_of_idle (change : ξ → β → β) (h : a.act? t = none) :
    (a.turn change t).service.notes = a.service.notes ∧
      a.service.listeners <+: (a.turn change t).service.listeners ∧
      (a.turn change t).service.channel = a.service.channel := by
  cases t with
  | act i =>
    change (a.proceed i).service.notes = _ ∧ _ <+: (a.proceed i).service.listeners ∧
      (a.proceed i).service.channel = _
    rw [proceed_of_idle h]
    exact ⟨rfl, List.prefix_rfl, rfl⟩
  | drop i =>
    change (a.drop i).service.notes = _ ∧ _ <+: (a.drop i).service.listeners ∧
      (a.drop i).service.channel = _
    unfold drop
    split
    · split <;> exact ⟨rfl, List.prefix_rfl, rfl⟩
    · exact ⟨rfl, List.prefix_rfl, rfl⟩
  | register l => exact ⟨rfl, List.prefix_append _ _, rfl⟩
  | begin j | subscribe | poll i | outside x => exact ⟨rfl, List.prefix_rfl, rfl⟩

/-! ## Runs -/

theorem after_append (change : ξ → β → β) (a : Audience β) (ts ts' : List (AudienceTurn ξ)) :
    a.after change (ts ++ ts') = (a.after change ts).after change ts' :=
  List.foldl_append

theorem after_concat (change : ξ → β → β) (a : Audience β) (ts : List (AudienceTurn ξ))
    (t : AudienceTurn ξ) : a.after change (ts ++ [t]) = (a.after change ts).turn change t :=
  a.after_append change ts [t]

theorem gather_append (change : ξ → β → β) (f : Audience β → AudienceTurn ξ → Option γ)
    (a : Audience β) (ts ts' : List (AudienceTurn ξ)) :
    a.gather change f (ts ++ ts') =
      a.gather change f ts ++ (a.after change ts).gather change f ts' := by
  induction ts generalizing a with
  | nil => rfl
  | cons t ts ih =>
    rw [List.cons_append, gather, gather, ih, List.append_assoc]
    rfl

theorem gather_concat (change : ξ → β → β) (f : Audience β → AudienceTurn ξ → Option γ)
    (a : Audience β) (ts : List (AudienceTurn ξ)) (t : AudienceTurn ξ) :
    a.gather change f (ts ++ [t]) =
      a.gather change f ts ++ (f (a.after change ts) t).toList := by
  rw [gather_append, gather, gather, List.append_nil]

theorem tellings_concat (change : ξ → β → β) (a : Audience β) (ts : List (AudienceTurn ξ))
    (t : AudienceTurn ξ) :
    a.tellings change (ts ++ [t]) =
      a.tellings change ts ++ ((a.after change ts).telling? t).toList :=
  a.gather_concat change telling? ts t

theorem announced_concat (change : ξ → β → β) (a : Audience β) (ts : List (AudienceTurn ξ))
    (t : AudienceTurn ξ) :
    a.announced change (ts ++ [t]) =
      a.announced change ts ++ ((a.after change ts).announcement? t).toList :=
  a.gather_concat change announcement? ts t

theorem committed_concat (change : ξ → β → β) (a : Audience β) (ts : List (AudienceTurn ξ))
    (t : AudienceTurn ξ) :
    a.committed change (ts ++ [t]) =
      a.committed change ts ++ ((a.after change ts).commitment? t).toList :=
  a.gather_concat change commitment? ts t

/-! ## Listeners -/

/-- What listeners of a name note of tellings: each as often as there were such listeners. -/
def notesOf (name : String) (τs : List Telling) : List WriteEvent :=
  τs.flatMap fun τ => List.replicate (Listener.named name τ.listeners) τ.event

theorem notesOf_append (name : String) (τs τs' : List Telling) :
    notesOf name (τs ++ τs') = notesOf name τs ++ notesOf name τs' :=
  List.flatMap_append

theorem heard_turn (change : ξ → β → β) (a : Audience β) (t : AudienceTurn ξ) (name : String) :
    (a.turn change t).service.heard name =
      a.service.heard name ++ notesOf name (a.telling? t).toList := by
  unfold telling?
  cases ht : a.act? t with
  | none =>
    unfold Service.heard
    rw [(service_of_idle change ht).1]
    exact (List.append_nil _).symm
  | some act =>
    obtain ⟨i, k⟩ := act
    rw [service_of_act ht]
    cases k with
    | notify e =>
      refine (Service.heard_notify a.service e name).trans ?_
      simp [notesOf, Act.told?]
    | _ => exact (List.append_nil _).symm

/-- Whatever happens, what is noted under a name are the events that listeners have been told
of, each once for each listener of that name there was. -/
theorem heard_after (change : ξ → β → β) (a : Audience β) (ts : List (AudienceTurn ξ))
    (name : String) :
    (a.after change ts).service.heard name =
      a.service.heard name ++ notesOf name (a.tellings change ts) := by
  induction ts using List.reverseRecOn with
  | nil => exact (List.append_nil _).symm
  | append_singleton ts t ih =>
    rw [after_concat, heard_turn, ih, tellings_concat, notesOf_append, List.append_assoc]

theorem listeners_turn (change : ξ → β → β) (a : Audience β) (t : AudienceTurn ξ) :
    a.service.listeners <+: (a.turn change t).service.listeners := by
  cases ht : a.act? t with
  | none => exact (service_of_idle change ht).2.1
  | some act =>
    obtain ⟨i, k⟩ := act
    rw [service_of_act ht]
    cases k with
    | notify e => exact ⟨_, (Service.listeners_notify a.service e).symm⟩
    | _ => exact List.prefix_rfl

/-- Listeners stay registered, and those that come are registered after them. -/
theorem listeners_after (change : ξ → β → β) (a : Audience β) (ts : List (AudienceTurn ξ)) :
    a.service.listeners <+: (a.after change ts).service.listeners := by
  induction ts using List.reverseRecOn with
  | nil => exact List.prefix_rfl
  | append_singleton ts t ih =>
    rw [after_concat]
    exact ih.trans (listeners_turn change _ t)

/-! ## The channel -/

theorem channel_turn (change : ξ → β → β) (a : Audience β) (t : AudienceTurn ξ) :
    (a.turn change t).service.channel =
      ((a.announcement? t).map Prod.snd).elim a.service.channel a.service.channel.send := by
  unfold announcement?
  cases ht : a.act? t with
  | none => exact (service_of_idle change ht).2.2
  | some act =>
    obtain ⟨i, k⟩ := act
    rw [service_of_act ht]
    cases k with
    | notify e => exact Service.channel_foldl_tell a.service.listeners e a.service
    | _ => rfl

/-- The channel carries the events announced. -/
theorem channel_after (change : ξ → β → β) {es : List WriteEvent}
    (h : a.service.channel.Carries es) (ts : List (AudienceTurn ξ)) :
    (a.after change ts).service.channel.Carries (es ++ (a.announced change ts).map Prod.snd) ∧
      (a.after change ts).service.channel.capacity = a.service.channel.capacity := by
  induction ts using List.reverseRecOn with
  | nil =>
    refine ⟨?_, rfl⟩
    rw [announced, gather, List.map_nil, List.append_nil]
    exact h
  | append_singleton ts t ih =>
    obtain ⟨hcarries, hcapacity⟩ := ih
    rw [after_concat, channel_turn, announced_concat, List.map_append, ← List.append_assoc]
    cases (a.after change ts).announcement? t with
    | none => exact ⟨by simpa using hcarries, hcapacity⟩
    | some announced =>
      obtain ⟨i, e⟩ := announced
      exact ⟨hcarries.send e, hcapacity⟩

end Audience
end ScopedSettings
