/-
What observers of the channel are given.

An observer that is never further behind than the channel was asked to keep events follows
the announcements from its subscription on (`Audience.KeepsUp.follows`). However far behind,
one is given nothing that has not been announced (`Audience.announced_of_mem_events`).
-/
import ScopedSettings.Proofs.Service.Listening

namespace ScopedSettings

/-! ## Asking once -/

/-- Does an observer that came when so many events had been sent follow those sent later? -/
structure Observer.Follows (o : Observer) (start : Nat) (later : List WriteEvent) : Prop where
  next_eq : o.receiver.next = start + o.events.length
  events_prefix : o.events <+: later
  not_lagged : ∀ missed, .lagged missed ∉ o.received

/-- What an observer that follows is given next: the event after those it has been given, if
there is one. -/
def Observer.due (o : Observer) (later : List WriteEvent) : Received :=
  later[o.events.length]?.elim .empty .event

namespace Observer

variable {c : Channel} {o : Observer} {es later : List WriteEvent} {n : Nat}

theorem events_ask (c : Channel) (o : Observer) :
    (o.ask c).events = o.events ++ (c.receive o.receiver).1.event?.toList := by
  unfold events ask
  rw [List.filterMap_append, List.filterMap_cons, List.filterMap_nil]
  cases (c.receive o.receiver).1.event? <;> rfl

theorem Follows.mono {start : Nat} {later' : List WriteEvent} (h : o.Follows start later)
    (hlater : later <+: later') : o.Follows start later' :=
  ⟨h.next_eq, h.events_prefix.trans hlater, h.not_lagged⟩

section Asking

variable (hc : c.Carries (es ++ later)) (hn : n ≤ c.capacity)
  (hbehind : later.length ≤ o.events.length + n)

include hc hn hbehind

theorem Follows.receive_of_some (h : o.Follows es.length later) {e : WriteEvent}
    (he : later[o.events.length]? = some e) :
    c.receive o.receiver = (.event e, ⟨o.receiver.next + 1⟩) := by
  have hnext := h.next_eq
  refine hc.receive_of_some (by rw [List.length_append]; omega) ?_
  rw [hnext, List.getElem?_append_right (Nat.le_add_right _ _), Nat.add_sub_cancel_left, he]

theorem Follows.receive_of_none (h : o.Follows es.length later)
    (he : later[o.events.length]? = none) : c.receive o.receiver = (.empty, o.receiver) := by
  have hnext := h.next_eq
  refine hc.receive_of_none (by rw [List.length_append]; omega) ?_
  rw [hnext, List.getElem?_append_right (Nat.le_add_right _ _), Nat.add_sub_cancel_left, he]

/-- One that is not too far behind is given the event that is due. -/
theorem Follows.given_eq (h : o.Follows es.length later) :
    (c.receive o.receiver).1 = o.due later := by
  unfold due
  cases he : later[o.events.length]? with
  | none => rw [h.receive_of_none hc hn hbehind he]; rfl
  | some e => rw [h.receive_of_some hc hn hbehind he]; rfl

theorem Follows.ask (h : o.Follows es.length later) : (o.ask c).Follows es.length later := by
  cases hdue : later[o.events.length]? with
  | none =>
    have hreceive := h.receive_of_none hc hn hbehind hdue
    have hask : o.ask c = ⟨o.receiver, o.received ++ [.empty]⟩ := by
      unfold Observer.ask
      rw [hreceive]
    have hevents : (o.ask c).events = o.events := by
      rw [events_ask, hreceive]
      exact List.append_nil _
    refine ⟨?_, hevents ▸ h.events_prefix, ?_⟩
    · rw [hevents, hask, h.next_eq]
    · rw [hask]
      simpa using h.not_lagged
  | some e =>
    have hreceive := h.receive_of_some hc hn hbehind hdue
    have hask : o.ask c = ⟨⟨o.receiver.next + 1⟩, o.received ++ [.event e]⟩ := by
      unfold Observer.ask
      rw [hreceive]
    have hevents : (o.ask c).events = o.events ++ [e] := by
      rw [events_ask, hreceive]
      rfl
    refine ⟨?_, ?_, ?_⟩
    · rw [hevents, List.length_append, List.length_singleton, hask, h.next_eq, Nat.add_assoc]
    · obtain ⟨rest, rfl⟩ := h.events_prefix
      rw [List.getElem?_append_right (Nat.le_refl _), Nat.sub_self] at hdue
      cases rest with
      | nil => cases hdue
      | cons first rest =>
        cases hdue
        rw [hevents]
        exact ⟨rest, List.append_assoc _ _ _⟩
    · rw [hask]
      simpa using h.not_lagged

end Asking
end Observer

/-! ## Asking throughout a run -/

namespace Audience

variable {β ξ : Type} [Backend β] {change : ξ → β → β} {a : Audience β} {es : List WriteEvent}

/-- The events announced in a run. -/
abbrev announcedEvents (change : ξ → β → β) (a : Audience β) (ts : List (AudienceTurn ξ)) :
    List WriteEvent :=
  (a.announced change ts).map Prod.snd

/-- Is the observer that came last at every moment of a run at most `n` events behind? -/
def KeepsUp (change : ξ → β → β) (a : Audience β) (j n : Nat) (ts : List (AudienceTurn ξ)) : Prop :=
  ∀ p, p <+: ts → ∀ o, (a.after change p).observers[j]? = some o →
    (a.announced change p).length ≤ o.events.length + n

/-- A turn leaves the observers, lets one come, or lets one ask. -/
theorem observers_turn (change : ξ → β → β) (a : Audience β) (t : AudienceTurn ξ) :
    (a.turn change t).observers = a.observers ∨
      (∃ receiver, (a.turn change t).observers = a.observers ++ [⟨receiver, []⟩]) ∨
      ∃ i, (a.turn change t).observers = a.observers.modify i (Observer.ask a.service.channel) := by
  cases t with
  | act i =>
    refine .inl ?_
    change (a.proceed i).observers = a.observers
    unfold proceed
    split <;> rfl
  | drop i =>
    refine .inl ?_
    change (a.drop i).observers = a.observers
    unfold drop
    split
    · split <;> rfl
    · rfl
  | subscribe => exact .inr (.inl ⟨_, rfl⟩)
  | poll i => exact .inr (.inr ⟨i, rfl⟩)
  | begin | register | outside => exact .inl rfl

/-- A turn leaves an observer as it is, or it asks in it. -/
theorem observer_turn (change : ξ → β → β) (t : AudienceTurn ξ) {j : Nat} {o : Observer}
    (ho : a.observers[j]? = some o) :
    (a.turn change t).observers[j]? = some o ∨
      (a.turn change t).observers[j]? = some (o.ask a.service.channel) := by
  rcases observers_turn change a t with hsame | ⟨receiver, hcome⟩ | ⟨i, hasked⟩
  · exact .inl (hsame ▸ ho)
  · rw [hcome, List.getElem?_append_left (List.getElem?_eq_some_iff.mp ho).1]
    exact .inl ho
  · rw [hasked, List.getElem?_modify, ho]
    by_cases hij : i = j
    · exact .inr (by simp [hij])
    · exact .inl (by simp [hij])

theorem KeepsUp.follows {j n : Nat} (ha : a.service.channel.Carries es)
    (hn : n ≤ a.service.channel.capacity) (ho : a.observers[j]? = some ⟨⟨es.length⟩, []⟩)
    {ts : List (AudienceTurn ξ)} (h : a.KeepsUp change j n ts) :
    ∃ o, (a.after change ts).observers[j]? = some o ∧
      o.Follows es.length (a.announcedEvents change ts) := by
  induction ts using List.reverseRecOn with
  | nil => exact ⟨_, ho, rfl, List.nil_prefix, fun _ => List.not_mem_nil⟩
  | append_singleton ts t ih =>
    obtain ⟨o, hold, hfollows⟩ := ih fun p hp => h p (hp.trans (List.prefix_append _ _))
    obtain ⟨hcarries, hcapacity⟩ := channel_after change ha ts
    have hlater : a.announcedEvents change ts <+: a.announcedEvents change (ts ++ [t]) := by
      unfold announcedEvents
      rw [announced_concat, List.map_append]
      exact List.prefix_append _ _
    rw [after_concat]
    rcases observer_turn change t hold with hsame | hasked
    · exact ⟨o, hsame, hfollows.mono hlater⟩
    · have hbehind := h ts (List.prefix_append _ _) o hold
      refine ⟨_, hasked, (hfollows.ask hcarries (hcapacity ▸ hn) ?_).mono hlater⟩
      rw [List.length_map]
      exact hbehind

/-- One that subscribes and keeps up follows what is announced from then on, and is given the
event that is due whenever it asks. -/
theorem KeepsUp.subscribed {n : Nat} (ha : a.service.channel.Carries es)
    (hn : n ≤ a.service.channel.capacity) {ts : List (AudienceTurn ξ)}
    (h : (a.turn change .subscribe).KeepsUp change a.observers.length n ts) :
    ∃ o, ((a.turn change .subscribe).after change ts).observers[a.observers.length]? = some o ∧
      o.Follows es.length ((a.turn change .subscribe).announcedEvents change ts) ∧
      (((a.turn change .subscribe).after change ts).service.channel.receive o.receiver).1 =
        o.due ((a.turn change .subscribe).announcedEvents change ts) := by
  have hafter : (a.turn change .subscribe).service.channel.Carries es := ha
  have hn' : n ≤ (a.turn change .subscribe).service.channel.capacity := hn
  have hlast : (a.turn change .subscribe).observers[a.observers.length]? =
      some ⟨⟨es.length⟩, []⟩ := by
    rw [← ha.sent_eq]
    exact List.getElem?_concat_length
  obtain ⟨o, ho, hfollows⟩ := h.follows hafter hn' hlast
  obtain ⟨hcarries, hcapacity⟩ := channel_after change hafter ts
  have hbehind := h ts List.prefix_rfl o ho
  refine ⟨o, ho, hfollows, hfollows.given_eq hcarries (hcapacity ▸ hn') ?_⟩
  rw [List.length_map]
  exact hbehind

/-- An observer was there before a turn, has come in it and been given nothing, or has asked
in it. -/
theorem mem_observers_turn (change : ξ → β → β) (t : AudienceTurn ξ) {o : Observer}
    (ho : o ∈ (a.turn change t).observers) :
    o ∈ a.observers ∨ o.events = [] ∨ ∃ o' ∈ a.observers, o = o'.ask a.service.channel := by
  rcases observers_turn change a t with hsame | ⟨receiver, hcome⟩ | ⟨i, hasked⟩
  · exact .inl (hsame ▸ ho)
  · rw [hcome] at ho
    rcases List.mem_append.mp ho with hold | hnew
    · exact .inl hold
    · rw [List.mem_singleton.mp hnew]
      exact .inr (.inl rfl)
  · obtain ⟨j, hj⟩ := List.getElem?_of_mem ho
    rw [hasked, List.getElem?_modify] at hj
    obtain ⟨o', hold, heq⟩ := Option.map_eq_some_iff.mp hj
    have hmem := List.mem_of_getElem? hold
    by_cases hij : i = j
    · rw [if_pos hij] at heq
      exact .inr (.inr ⟨o', hmem, heq.symm⟩)
    · rw [if_neg hij] at heq
      cases heq
      exact .inl hmem

/-- However far behind, an observer is given nothing that has not been announced. -/
theorem announced_of_mem_events (ha : a.service.channel.Carries []) (hnone : a.observers = [])
    {ts : List (AudienceTurn ξ)} {o : Observer} (ho : o ∈ (a.after change ts).observers)
    {e : WriteEvent} (he : e ∈ o.events) : e ∈ a.announcedEvents change ts := by
  induction ts using List.reverseRecOn generalizing o with
  | nil =>
    change o ∈ a.observers at ho
    rw [hnone] at ho
    cases ho
  | append_singleton ts t ih =>
    have hlater : a.announcedEvents change ts ⊆ a.announcedEvents change (ts ++ [t]) := by
      unfold announcedEvents
      rw [announced_concat, List.map_append]
      exact List.subset_append_left _ _
    rw [after_concat] at ho
    rcases mem_observers_turn change t ho with hold | hnew | ⟨o', hold, rfl⟩
    · exact hlater (ih hold he)
    · rw [hnew] at he
      cases he
    · rw [Observer.events_ask] at he
      rcases List.mem_append.mp he with he | he
      · exact hlater (ih hold he)
      · have hgiven : ((a.after change ts).service.channel.receive o'.receiver).1 = .event e := by
          cases hgiven : ((a.after change ts).service.channel.receive o'.receiver).1 with
          | event e' =>
            rw [hgiven] at he
            rw [List.mem_singleton.mp he]
          | empty | lagged =>
            rw [hgiven] at he
            cases he
        exact hlater ((channel_after change ha ts).1.mem_of_receive hgiven)

end Audience
end ScopedSettings
