/-
Listeners hear of every committed write exactly once.

However callers take turns and whenever listeners are registered, a write that returns its
record has told the listeners of it once and sent it to the observers after that, and no
other caller has published anything (`Audience.notifiesOnce`). A listener hears of the
writes whose publication begins once it is registered: a listener registered by another one,
in the course of a publication, is not told of that write, and of two writes that overlap
after their commits the later one may be told of first.
-/
import Mathlib.Data.List.Infix
import ScopedSettings.Proofs.Service.PublicationOrder
import ScopedSettings.Proofs.Service.Observers
import ScopedSettings.Proofs.Instant.RoundTrip
import ScopedSettings.Store.Memory

namespace ScopedSettings

open Service (eventOf)

/-- What a write has committed and published where it stands: all of it once it has returned
its record, nothing if it was refused, failed or is never answered, and on the way first to
its listeners, and to the observers only with its return. -/
def Published (w : WorkerId) (now : Instant) (made : List Settings) (told sent : List WriteEvent) :
    Standing (Except SettingsError Settings) → Prop
  | .active (.done (.ok s)) => made = [s] ∧ told = [eventOf w s now] ∧ sent = [eventOf w s now]
  | .active (.done (.error _)) | .waiting => made = [] ∧ told = [] ∧ sent = []
  | .active (.step _ _) =>
    made.length ≤ 1 ∧ told <+: made.map (eventOf w · now) ∧ sent = []
  | .dropped => made.length ≤ 1 ∧ told = [] ∧ sent = []

/-- Has a caller committed and published what it should have, and nothing unless it writes? -/
def Caller.Accounted (made : List Settings) (told sent : List WriteEvent) : Caller → Prop
  | ⟨⟨.write w _ now, _⟩, standing⟩ => Published w now made told sent standing
  | _ => made = [] ∧ told = [] ∧ sent = []

theorem Writing.published {w : WorkerId} {u : Update} {now : Instant} {made : List Settings}
    {told sent : List WriteEvent} {st : Standing (Except SettingsError Settings)}
    (h : Writing w u now made told sent st) : Published w now made told sent st := by
  cases h with
  | failed e | waiting => exact ⟨rfl, rfl, rfl⟩
  | first => exact ⟨Nat.zero_le 1, List.nil_prefix, rfl⟩
  | committed s => exact ⟨Nat.le_refl 1, List.nil_prefix, rfl⟩
  | told s => exact ⟨Nat.le_refl 1, List.prefix_rfl, rfl⟩
  | returned s => exact ⟨rfl, rfl, rfl⟩
  | dropped h => exact ⟨h, rfl, rfl⟩

theorem Caller.Placed.accounted {c : Caller} {made : List Settings} {told sent : List WriteEvent}
    (h : c.Placed made told sent) : c.Accounted made told sent := by
  cases h with
  | writing h => exact h.published
  | @quiet job st hjob h =>
    obtain ⟨k, held⟩ := job
    cases k with
    | write w u now => exact absurd rfl (hjob w u now)
    | _ => exact ⟨rfl, rfl, rfl⟩

namespace Audience

variable {β ξ : Type} [Backend β]

/-- What a run comes to that is split in two: those registered at the split hear of every
write told of later, each once. -/
structure NotifiesOnce (change : ξ → β → β) (a : Audience β) (n : Nat)
    (before later : List (AudienceTurn ξ)) : Prop where
  /-- Those registered at the split are among those told of each later write, in their order. -/
  registered : ∀ τ ∈ (a.after change before).tellings change later,
    (a.after change before).service.listeners <+: τ.listeners
  /-- Listeners of a name hear of each telling once for each of them. -/
  heard : ∀ name, (a.after change (before ++ later)).service.heard name =
    (a.after change before).service.heard name ++
      notesOf name ((a.after change before).tellings change later)
  /-- The only listener of its name hears what is told after the split, each event once. -/
  heard_once : ∀ name, Listener.named name (a.after change before).service.listeners = 1 →
    Listener.named name (a.after change (before ++ later)).service.listeners = 1 →
    (a.after change (before ++ later)).service.heard name =
      (a.after change before).service.heard name ++
        ((a.after change before).told change later).map Prod.snd
  /-- Each caller has committed and published what it should have. -/
  accounted : ∀ (i : Nat) (c : Caller), (a.after change (before ++ later)).callers[i]? = some c →
    c.Accounted (ofCaller i (a.committed change (before ++ later)))
      (ofCaller i (a.told change (before ++ later)))
      (ofCaller i (a.announced change (before ++ later)))
  /-- Nobody else has. -/
  nobody : ∀ i : Nat, (a.after change (before ++ later)).callers[i]? = none →
    ofCaller i (a.committed change (before ++ later)) = [] ∧
      ofCaller i (a.told change (before ++ later)) = [] ∧
      ofCaller i (a.announced change (before ++ later)) = []
  /-- A write that has returned its record told its listeners of it once, after the split unless
  it did before. -/
  returned : ∀ i w u now held s, (a.after change (before ++ later)).callers[i]? =
      some ⟨⟨.write w u now, held⟩, .active (.done (.ok s))⟩ →
    ofCaller i (a.told change before) = [] ∧
        ofCaller i ((a.after change before).told change later) = [eventOf w s now] ∨
      ofCaller i (a.told change before) = [eventOf w s now] ∧
        ofCaller i ((a.after change before).told change later) = []
  /-- Where publications do not overlap, listeners are told in the order of commits, and the
  observers are sent the same events. -/
  ordered : a.InTurn change (before ++ later) →
    (recordsOf (a.told change (before ++ later))).Sublist (a.committed change (before ++ later)) ∧
      a.announced change (before ++ later) <+: a.told change (before ++ later) ∧
      (a.told change (before ++ later)).length ≤ (a.announced change (before ++ later)).length + 1
  /-- What an observer has been given, listeners have been told of. -/
  observed : ∀ o ∈ (a.after change (before ++ later)).observers, ∀ e ∈ o.events,
    ∃ i, (i, e) ∈ a.told change (before ++ later)
  /-- An observer that subscribes at the split and keeps up is told of no gap, has been given
  the first of the events announced since, and is given the next one when it asks. -/
  follows : ((a.after change before).turn change .subscribe).KeepsUp change
      (a.after change before).observers.length n later →
    ∃ o, (((a.after change before).turn change .subscribe).after change later).observers[
        (a.after change before).observers.length]? = some o ∧
      (∀ missed, .lagged missed ∉ o.received) ∧
      o.events <+: ((a.after change before).turn change .subscribe).announcedEvents change later ∧
      ((((a.after change before).turn change .subscribe).after change later).service.channel.receive
          o.receiver).1 =
        o.due (((a.after change before).turn change .subscribe).announcedEvents change later)

variable {change : ξ → β → β} {a : Audience β}

theorem told_append (change : ξ → β → β) (a : Audience β) (ts ts' : List (AudienceTurn ξ)) :
    a.told change (ts ++ ts') = a.told change ts ++ (a.after change ts).told change ts' := by
  unfold told tellings
  rw [gather_append, List.map_append]

/-- Listeners told of a write are those registered at some moment of the run. -/
theorem exists_moment_of_mem_tellings {ts : List (AudienceTurn ξ)} {τ : Telling}
    (h : τ ∈ a.tellings change ts) :
    ∃ before later, ts = before ++ later ∧
      τ.listeners = (a.after change before).service.listeners := by
  induction ts using List.reverseRecOn with
  | nil => cases h
  | append_singleton ts t ih =>
    rw [tellings_concat] at h
    rcases List.mem_append.mp h with hold | hnew
    · obtain ⟨before, later, rfl, hlisteners⟩ := ih hold
      exact ⟨before, later ++ [t], List.append_assoc _ _ _, hlisteners⟩
    · obtain ⟨act, -, htold⟩ := Option.bind_eq_some_iff.mp (Option.mem_toList.mp hnew)
      obtain ⟨e, -, rfl⟩ := Option.map_eq_some_iff.mp htold
      exact ⟨ts, [t], rfl, rfl⟩

/-- Those registered before a run are told of every write in it, and those told are registered
at its end. -/
theorem listeners_of_mem_tellings {ts : List (AudienceTurn ξ)} {τ : Telling}
    (h : τ ∈ a.tellings change ts) :
    a.service.listeners <+: τ.listeners ∧
      τ.listeners <+: (a.after change ts).service.listeners := by
  obtain ⟨before, later, rfl, hlisteners⟩ := exists_moment_of_mem_tellings h
  rw [hlisteners, after_append]
  exact ⟨listeners_after change a before, listeners_after change _ later⟩

theorem named_mono (name : String) {ls ls' : List Listener} (h : ls <+: ls') :
    Listener.named name ls ≤ Listener.named name ls' :=
  h.sublist.countP_le

/-- Told of always alone under its name, a listener notes each event once. -/
theorem notesOf_of_named_one {name : String} {τs : List Telling}
    (h : ∀ τ ∈ τs, Listener.named name τ.listeners = 1) :
    notesOf name τs = τs.map Telling.event := by
  unfold notesOf
  induction τs with
  | nil => rfl
  | cons τ τs ih =>
    rw [List.flatMap_cons, h τ List.mem_cons_self, ih fun σ hσ => h σ (List.mem_cons_of_mem τ hσ)]
    rfl

/-- However callers take turns, over whatever backend, listeners are told exactly once of each
write that returns its record, and observers after them. -/
theorem notifiesOnce (change : ξ → β → β) (r : Service β) (n : Nat)
    (before later : List (AudienceTurn ξ)) :
    (opened r n).NotifiesOnce change n before later := by
  have hplaced := allPlaced_after change (opened r n) rfl (before ++ later)
  have hcarries : (opened r n).service.channel.Carries [] := Channel.Carries.first n
  have htold := (opened r n).told_append change before later
  have hheard : ∀ name, ((opened r n).after change (before ++ later)).service.heard name =
      ((opened r n).after change before).service.heard name ++
        notesOf name (((opened r n).after change before).tellings change later) := by
    intro name
    rw [after_append]
    exact heard_after change _ later name
  constructor
  case registered => exact fun τ hτ => (listeners_of_mem_tellings hτ).1
  case heard => exact hheard
  case heard_once =>
    intro name hfirst hlast
    rw [hheard, notesOf_of_named_one]
    · simp [told]
    · intro τ hτ
      obtain ⟨hfirst', hlast'⟩ := listeners_of_mem_tellings hτ
      rw [← after_append] at hlast'
      have hlow := named_mono name hfirst'
      have hhigh := named_mono name hlast'
      omega
  case accounted => exact fun i c hc => (hplaced.caller hc).accounted
  case nobody => exact fun i hi => hplaced.nobody hi
  case returned =>
    intro i w u now held s hc
    obtain ⟨-, htotal, -⟩ := (hplaced.caller hc).accounted
    rw [htold, ofCaller_append] at htotal
    rcases List.append_eq_singleton_iff.mp htotal with h | h
    · exact .inl h
    · exact .inr h
  case ordered => exact fun h => (h.phase rfl).ordered
  case observed =>
    intro o ho e he
    obtain ⟨⟨i, _⟩, hsent, rfl⟩ := List.mem_map.mp (announced_of_mem_events hcarries rfl ho he)
    exact ⟨i, hplaced.mem_told_of_mem_sent hsent⟩
  case follows =>
    intro hkeeps
    obtain ⟨hcarriesMid, hcapacity⟩ := channel_after change hcarries before
    have hn : n ≤ ((opened r n).after change before).service.channel.capacity :=
      hcapacity ▸ Channel.le_capacity_ofCapacity n
    obtain ⟨o, ho, hfollows, hdue⟩ := KeepsUp.subscribed hcarriesMid hn hkeeps
    exact ⟨o, ho, hfollows.not_lagged, hfollows.events_prefix, hdue⟩

/-! ## Fixed runs -/

/-- The audience of a store in memory whose channel keeps one event. -/
def inMemory : Audience MemoryStore :=
  opened { backend := {} } 1

/-- A caller that switches Jira on. -/
def switching (w : WorkerId) : Job :=
  ⟨.write w { enableJira := some true } .epoch, []⟩

/-- The record as the given version, once Jira has been switched on. -/
def switched (version : UInt64) : Settings :=
  { Settings.default with enableJira := true, version, updatedAt := some Instant.epoch }

/-- A write, and then one that a listener and an observer registered in between hear of. -/
theorem notifiesOnce_one_after_another :
    let change : Empty → MemoryStore → MemoryStore := nofun
    let before := [.begin (switching ⟨1⟩), .act 0, .act 0, .act 0, .register (.recorder "late")]
    let later := [.begin (switching ⟨2⟩), .act 1, .act 1, .act 1, .poll 0]
    inMemory.InTurn change (before ++ later) ∧
      ((inMemory.after change before).turn change .subscribe).KeepsUp change 0 1 later ∧
      inMemory.NotifiesOnce change 1 before later ∧
      (inMemory.after change (before ++ later)).service.heard "late" =
        [eventOf ⟨2⟩ (switched 2) .epoch] ∧
      (((inMemory.after change before).turn change .subscribe).after change later).observers.map
          Observer.events =
        [[eventOf ⟨2⟩ (switched 2) .epoch]] := by
  intro change before later
  have honce : inMemory.NotifiesOnce change 1 before later :=
    notifiesOnce change { backend := {} } 1 before later
  have hone : ∀ p ∈ (before ++ later).inits, OneAtATime (inMemory.after change p).callers := by
    unfold OneAtATime
    decide
  have hannounced : ∀ p ∈ later.inits,
      (((inMemory.after change before).turn change .subscribe).announced change p).length ≤ 1 := by
    decide
  refine ⟨fun p hp => hone p ((List.mem_inits p _).mpr hp), fun p hp o _ => ?_, honce, ?_, ?_⟩
  · have hp' := hannounced p ((List.mem_inits p _).mpr hp)
    omega
  · rw [honce.heard_once "late" (by decide) (by decide)]
    decide
  · decide

/-- A listener that another one registers on being told of a write does not hear of that write,
which returns its record later. Of two writes that overlap after their commits, the second can
be told of first. -/
theorem heard_late_and_out_of_order :
    let change : Empty → MemoryStore → MemoryStore := nofun
    let growing := [.register (.growing "g"), .begin (switching ⟨1⟩), .act 0, .act 0]
    let overlapping := [.register (.recorder "a"), .begin (switching ⟨1⟩), .begin (switching ⟨2⟩),
      .act 0, .act 1, .act 1, .act 1, .act 0, .act 0]
    (((inMemory.after change growing).callers[0]?.bind Caller.next? =
          some (.announce (eventOf ⟨1⟩ (switched 1) .epoch)) ∧
        Listener.named "g+" (inMemory.after change growing).service.listeners = 1) ∧
      (inMemory.after change (growing ++ [.act 0])).callers[0]? =
        some ⟨switching ⟨1⟩, .active (.done (.ok (switched 1)))⟩ ∧
      (inMemory.after change (growing ++ [.act 0])).service.heard "g+" = []) ∧
    inMemory.committed change overlapping = [(0, switched 1), (1, switched 2)] ∧
      (inMemory.after change overlapping).callers =
        [⟨switching ⟨1⟩, .active (.done (.ok (switched 1)))⟩,
          ⟨switching ⟨2⟩, .active (.done (.ok (switched 2)))⟩] ∧
      (inMemory.after change overlapping).service.heard "a" =
        [eventOf ⟨2⟩ (switched 2) .epoch, eventOf ⟨1⟩ (switched 1) .epoch] := by
  intro change growing overlapping
  exact ⟨⟨⟨rfl, by decide⟩, rfl, by decide⟩, by decide, rfl, by decide⟩

end Audience
end ScopedSettings
