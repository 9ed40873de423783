/-
Valid records stay valid.

Whatever is done with a service whose record is valid, or is not there yet, all its records
are valid at every point, and so are those that its callers get to see: the values of
reads and writes, entries, events, responses and what is printed. This is so for programs of
tasks (`Bench.valid_perform`), and for calls of the service whose steps fall as they may. A
task must not change the record behind the store's back, nor bring an invalid one along
(`Task.IsLawful`).
-/
import ScopedSettings.Proofs.Http.Changes
import ScopedSettings.Proofs.Program.Fits
import ScopedSettings.Proofs.Service.FileAndMemory
import ScopedSettings.Proofs.Service.Isolation
import ScopedSettings.Proofs.Service.Upholding
import ScopedSettings.Proofs.Service.Validity
import ScopedSettings.Scenario.Run

namespace ScopedSettings

open Strand (Ends)

variable {ν : Type}

namespace Session

/-- Are all records of a session's service valid? -/
def HoldsValid (s : Session RecordStore) : Prop :=
  s.service.HoldsValid

theorem holdsValid_opened {store : RecordStore} (hstore : store.HoldsValid) {config : Config}
    {r : Service RecordStore} (hr : Service.ofBackend store config = .ok r) :
    r.HoldsValid := by
  obtain rfl := Service.eq_of_ofBackend hr
  exact ⟨hstore, fun _ he => (List.not_mem_nil he).elim, fun _ hn => (List.not_mem_nil hn).elim,
    fun _ he => (List.not_mem_nil he).elim⟩

variable {α : Type} {P : α → Prop} {c : Course α}

theorem valid_run (hc : c.Proper P) (patience : Option Duration) :
    Ends HoldsValid (fun x => ∀ y, x = some y → P y.1) (run c patience) := by
  have hpart : ∀ s : Session RecordStore, s.HoldsValid → s.service.HoldsValid := fun _ h => h
  have hput : ∀ (r : Service RecordStore) (s : Session RecordStore), r.HoldsValid →
      s.HoldsValid → HoldsValid { s with service := r } := fun _ _ hr _ => hr
  exact (Service.ends_play_of_proper hc patience).on hpart hput

theorem upholds_valid : Upholds HoldsValid fun answer => ∀ s, answer = .ok s → s.IsValid where
  get w bypass := valid_run (Course.proper_get w bypass)
  fetch := valid_run Course.proper_fetch
  write w u now := valid_run (Course.proper_write w u now)
  start w patience := (valid_run (Course.proper_start w) patience).imp fun _ _ => trivial
  finish w patience := (valid_run (Course.proper_finish w) patience).imp fun _ _ => trivial
  closeUnit h _ := h
  openUnit h _ _ := h

end Session

namespace Scenario

/-- Does a task leave the record to the store, and bring no invalid one along? -/
def Task.IsLawful : Task → Prop
  | .keep _ s | .replace s => s.IsValid
  | .putFile _ _ | .makeDirectories _ | .removeFile _ => False
  | _ => True

/-- Are the records that a task's finding shows valid? -/
def Task.ShowsValid : Task → Finding → Prop
  | _, .outcome (.settings (.ok s)) => s.IsValid
  | _, .entry (some s) => s.IsValid
  | _, .notes ns => ∀ n ∈ ns, n.event.settings.IsValid
  | _, .received (.event e) => e.settings.IsValid
  | .handle q _, .response answer => Http.AnswersValid q answer
  | .showSettings json, .printed (.ok text) =>
    ∃ s : Settings, s.IsValid ∧ text = if json then s.prettyText else s.listing
  | .changeSettings _ _, .printed (.ok text) => ∃ s : Settings, s.IsValid ∧ text = s.listing
  | _, _ => True

/-- Whatever a task has found shows valid records. -/
def Task.FindsValid (t : Task) (found : Option Finding) : Prop :=
  ∀ f, found = some f → t.ShowsValid f

theorem Task.findsValid_some {t : Task} {f : Finding} (h : t.ShowsValid f) :
    t.FindsValid (some f) := by
  intro f' hf'
  cases hf'
  exact h

section findings

variable {t : Task}

theorem Task.showsValid_settings {answer : Except SettingsError Settings}
    (h : ∀ s, answer = .ok s → s.IsValid) : t.ShowsValid (.outcome (.settings answer)) := by
  cases answer with
  | error e => cases t <;> trivial
  | ok s => exact h s rfl

theorem Task.showsValid_entry {found : Option Settings} (h : ∀ s, found = some s → s.IsValid) :
    t.ShowsValid (.entry found) := by
  cases found with
  | none => cases t <;> trivial
  | some s => exact h s rfl

theorem Task.showsValid_shown {json : Bool} {answer : Except CommandLine.Failure String}
    (h : ∀ text, answer = .ok text →
      ∃ s : Settings, s.IsValid ∧ text = if json then s.prettyText else s.listing) :
    (Task.showSettings json).ShowsValid (.printed answer) := by
  cases answer with
  | error f => trivial
  | ok text => exact h text rfl

theorem Task.showsValid_changed {u : Update} {now : Instant}
    {answer : Except CommandLine.Failure String}
    (h : ∀ text, answer = .ok text → ∃ s : Settings, s.IsValid ∧ text = s.listing) :
    (Task.changeSettings u now).ShowsValid (.printed answer) := by
  cases answer with
  | error f => trivial
  | ok text => exact h text rfl

end findings

namespace Bench

/-- Are all records of a bench's service valid? -/
def HoldsValid (b : Bench) : Prop :=
  b.session.HoldsValid

theorem HoldsValid.mapService {b : Bench} (h : b.HoldsValid)
    {f : Service RecordStore → Service RecordStore} (hf : ∀ r, r.HoldsValid → (f r).HoldsValid) :
    (b.mapService f).HoldsValid :=
  hf _ h

theorem HoldsValid.mapStore {b : Bench} (h : b.HoldsValid) {f : RecordStore → RecordStore}
    (hf : ∀ store, store.HoldsValid → (f store).HoldsValid) : (b.mapStore f).HoldsValid :=
  h.mapService fun _ hr => { hr with backend := hf _ hr.backend }

theorem holdsValid_replaced {store : RecordStore} (h : store.HoldsValid) {s : Settings}
    (hs : s.IsValid) : (store.mapMemory fun m => { m with record := some s }).HoldsValid := by
  obtain ⟨keeper, tree⟩ := store
  cases keeper with
  | memory m =>
    refine ⟨trivial, trivial, fun a ha => ?_⟩
    obtain rfl : s = a := Option.some.inj ha
    exact hs
  | scripted script => exact h.isKept.elim
  | file path => exact h

theorem valid_inSession {α : Type} {P : α → Prop} {p : Strand (Session RecordStore) α}
    (h : Ends Session.HoldsValid P p) : Ends HoldsValid P (inSession p) := by
  have hpart : ∀ b : Bench, b.HoldsValid → b.session.HoldsValid := fun _ h => h
  have hput : ∀ (s : Session RecordStore) (b : Bench), s.HoldsValid → b.HoldsValid →
      HoldsValid { b with session := s } := fun _ _ hs _ => hs
  unfold inSession
  exact h.on hpart hput

theorem valid_run {t : Task} {α : Type} {P : α → Prop} {c : Course α} (hc : c.Proper P)
    {finding : α → Finding} (hfinding : ∀ a, P a → t.ShowsValid (finding a)) :
    Ends HoldsValid t.FindsValid (run c finding) := by
  refine (valid_inSession (Session.valid_run hc _)).bind fun x hx => .done fun f hf => ?_
  obtain ⟨y, hy, rfl⟩ := Option.map_eq_some_iff.mp hf
  exact hfinding y.1 (hx y hy)

theorem valid_look {t : Task} {f : Bench → Finding}
    (h : ∀ b : Bench, b.HoldsValid → t.ShowsValid (f b)) :
    Ends HoldsValid t.FindsValid (look f) :=
  .look fun b hb => Task.findsValid_some (h b hb)

theorem valid_modify {f : Bench → Bench} (h : ∀ b : Bench, b.HoldsValid → (f b).HoldsValid) :
    Ends HoldsValid (fun _ => True) (.modify f) :=
  .act fun b hb => ⟨trivial, h b hb⟩

theorem valid_change {t : Task} (ht : t.ShowsValid .done) {f : Bench → Bench}
    (h : ∀ b : Bench, b.HoldsValid → (f b).HoldsValid) :
    Ends HoldsValid t.FindsValid (change f) :=
  (valid_modify h).bind fun _ _ => .done (Task.findsValid_some ht)

theorem valid_receive {b : Bench} (h : b.HoldsValid) (observer : String) :
    (Task.receive observer).ShowsValid (b.receive observer).1 ∧
      (b.receive observer).2.HoldsValid := by
  unfold receive
  split
  · exact ⟨trivial, h⟩
  · rename_i r _
    refine ⟨?_, h⟩
    change (Task.receive observer).ShowsValid (.received (b.service.channel.receive r).1)
    unfold Channel.receive
    split
    · trivial
    · split
      · rename_i e he
        exact h.kept e (List.mem_of_getElem? he)
      · trivial

/-- Every lawful task keeps all records valid, and finds valid ones. -/
theorem valid_perform {t : Task} (ht : t.IsLawful) : Ends HoldsValid t.FindsValid (perform t) := by
  cases t with
  | use o =>
    refine (valid_inSession (Session.upholds_valid.perform _ o)).bind fun outcome houtcome => ?_
    refine .done fun f hf => ?_
    obtain ⟨x, rfl, rfl⟩ := Option.map_eq_some_iff.mp hf
    cases x with
    | settings answer => exact Task.showsValid_settings (houtcome answer rfl)
    | started | ended | begun w | noUnit => trivial
  | inspectUnit name =>
    refine valid_look fun b _ => ?_
    cases b.session.unit? name <;> trivial
  | current | contains w | stats | countListeners | inspectStore | inspectCache | inspectService
  | storeName | showFile path | listFiles path => exact valid_look fun _ _ => trivial
  | lookUp w =>
    exact valid_run (Course.Proper.act (a := .lookUp w) trivial) fun _ => Task.showsValid_entry
  | keep w s =>
    refine valid_change trivial fun b hb => hb.mapService fun r hr => ?_
    exact { hr with entries := hr.entries.put w ht }
  | forget w =>
    refine .act fun b hb => ⟨Task.findsValid_some trivial, hb.mapService fun r hr => ?_⟩
    exact { hr with entries := Service.HoldsValid.entries hb |>.clear w }
  | switch on =>
    refine (valid_modify fun b hb => hb.mapStore fun store hstore => ?_).bind fun _ _ => ?_
    · exact hstore.follows (RecordStore.follows_switch hstore.isKept on)
    · exact .done (Task.findsValid_some trivial)
  | replace s =>
    exact valid_change trivial fun b hb => hb.mapStore fun _ hstore => holdsValid_replaced hstore ht
  | addListener l =>
    refine (valid_modify fun b hb => hb.mapService fun r hr => ?_).bind fun _ _ => ?_
    · exact ⟨hr.backend, hr.entries, hr.notes, hr.kept⟩
    · exact valid_look fun _ _ => trivial
  | takeNotes =>
    have hshown : ∀ b : Bench, b.HoldsValid → Task.takeNotes.ShowsValid (.notes b.service.notes) :=
      fun _ hb => Service.HoldsValid.notes hb
    refine (valid_look hshown).bind fun notes hnotes => ?_
    refine (valid_modify fun b hb => hb.mapService fun r hr => ?_).bind fun _ _ => .done hnotes
    exact { hr with notes := fun _ hn => (List.not_mem_nil hn).elim }
  | subscribe observer => exact valid_change trivial fun b hb => hb
  | receive observer =>
    refine .act fun b hb => ⟨Task.findsValid_some ?_, ?_⟩
    · exact (valid_receive hb observer).1
    · exact (valid_receive hb observer).2
  | handle q now => exact valid_run (Http.proper_handle q now) fun _ h => h
  | showSettings json =>
    exact valid_run (CommandLine.proper_showSettings json) fun _ => Task.showsValid_shown
  | changeSettings u now =>
    refine (Ends.look (P := fun _ => True) fun _ _ => trivial).bind fun w _ => ?_
    exact valid_run (CommandLine.proper_changeSettings w u now) fun _ => Task.showsValid_changed
  | listen a =>
    refine .done fun f hf => ?_
    obtain ⟨refusal, -, rfl⟩ := Option.map_eq_some_iff.mp hf
    trivial
  | putFile path bytes | makeDirectories path | removeFile path => exact ht.elim

end Bench

theorem keeps_machine :
    machine.Keeps Bench.HoldsValid Task.IsLawful Task.FindsValid where
  perform _ ht := Bench.valid_perform ht
  enter _ _ h := h
  leave _ h := h
  start w :=
    Bench.valid_inSession ((Session.valid_run (Course.proper_start w) none).map fun _ _ => trivial)
  finish w :=
    Bench.valid_inSession ((Session.valid_run (Course.proper_finish w) none).map fun _ _ => trivial)

/-! ## Callers side by side -/

/-- What a task asks of the service, where the given worker is the current one; a task that
is no call of the service does nothing. -/
def Task.course (w : WorkerId) : Task → Course Finding
  | .use (.get v bypass) => (fun x => .outcome (.settings x)) <$> Course.get (v.getD w) bypass
  | .use .fetch => (fun x => .outcome (.settings x)) <$> Course.fetch
  | .use (.write v u now) =>
    (fun x => .outcome (.settings x)) <$> Course.write (v.getD w) u now
  | .use (.start v) => (fun _ => .outcome .started) <$> Course.start v
  | .use (.succeed v) | .use (.fail v) => (fun _ => .outcome .ended) <$> Course.finish v
  | .lookUp v => .entry <$> Course.lookUp v
  | .handle q now => .response <$> Http.handle q now
  | .showSettings json => .printed <$> CommandLine.showSettings json
  | .changeSettings u now => .printed <$> CommandLine.changeSettings w u now
  | _ => return .done

/-- The tasks of a caller, one after another. -/
def callsOf (w : WorkerId) : List Task → Course (List Finding)
  | [] => return []
  | t :: ts => do
    let f ← t.course w
    let fs ← callsOf w ts
    return f :: fs

theorem proper_course (w : WorkerId) (t : Task) : (t.course w).Proper t.ShowsValid := by
  cases t with
  | use o =>
    cases o with
    | get v bypass =>
      exact (Course.proper_get (v.getD w) bypass).map fun _ => Task.showsValid_settings
    | fetch => exact Course.proper_fetch.map fun _ => Task.showsValid_settings
    | write v u now =>
      exact (Course.proper_write (v.getD w) u now).map fun _ => Task.showsValid_settings
    | start v => exact (Course.proper_start v).map fun _ _ => trivial
    | succeed v | fail v => exact (Course.proper_finish v).map fun _ _ => trivial
    | begin v name | succeedUnit name | failUnit name | dropUnit name => exact .done trivial
  | lookUp v =>
    exact (Course.Proper.act (a := .lookUp v) trivial).map fun _ => Task.showsValid_entry
  | handle q now => exact (Http.proper_handle q now).map fun _ h => h
  | showSettings json =>
    exact (CommandLine.proper_showSettings json).map fun _ => Task.showsValid_shown
  | changeSettings u now =>
    exact (CommandLine.proper_changeSettings w u now).map fun _ => Task.showsValid_changed
  | _ => exact .done trivial

theorem proper_callsOf (w : WorkerId) (ts : List Task) :
    (callsOf w ts).Proper (List.Forall₂ Task.ShowsValid ts) := by
  induction ts with
  | nil => exact .done .nil
  | cons t ts ih =>
    refine (proper_course w t).bind fun f hf => ih.bind fun fs hfs => ?_
    exact .done (.cons hf hfs)

/-- Are the findings of a caller, once it has ended, those of its tasks, with valid records? -/
def EndsValid (callers : List (WorkerId × List Task)) (i : Nat) (found : List Finding) : Prop :=
  ∀ caller, callers[i]? = some caller → List.Forall₂ Task.ShowsValid caller.2 found

theorem holdsValid_ofCourses {r : Service RecordStore} (hr : r.HoldsValid)
    (callers : List (WorkerId × List Task)) :
    (Concourse.ofCourses r (callers.map fun caller => callsOf caller.1 caller.2)).HoldsValid
      (EndsValid callers) := by
  refine ⟨hr, fun i course hcourse => ?_⟩
  rw [Concourse.course?_ofCourses, List.getElem?_map] at hcourse
  obtain ⟨caller, hcaller, rfl⟩ := Option.map_eq_some_iff.mp hcourse
  rw [← bind_pure (callsOf caller.1 caller.2)]
  refine (proper_callsOf caller.1 caller.2).bind fun found hfound => .done ?_
  intro caller' hcaller'
  obtain rfl : caller = caller' := Option.some.inj (hcaller.symm.trans hcaller')
  exact hfound

/-! ## Runs -/

/-- Where a store has no record that can be read, along a straight path if in a file, or a
valid one, and its record is changed through the store alone, all records stay valid:
in a program of tasks at every point, with the records that the tasks find; and however the
acts of callers fall that make calls one after another. The updates that are
accepted are those that set something and make a valid record of every valid one. -/
theorem records_stay_valid {store : RecordStore} (hkept : store.IsKept)
    (hpath : store.record? = none → store.IsStraight)
    (hrecord : ∀ s, store.record? = some s → s.IsValid) {config : Config}
    {r : Service RecordStore} (hr : Service.ofBackend store config = .ok r) :
    (∀ thread (steps : Steps Task ν) tries, steps.Every Task.IsLawful →
      let b : Bench := { session := .opened r thread }
      let done := (steps.perform machine tries).alone b
      b.HoldsValid ∧
        Ends Bench.HoldsValid (fun done => steps.Fits (fun _ => Task.FindsValid) [] done.1)
          (steps.perform machine tries) ∧
        done.2.HoldsValid ∧ steps.Fits (fun _ => Task.FindsValid) [] done.1.1) ∧
      (∀ (callers : List (WorkerId × List Task)) turns,
        let courses := callers.map fun caller => callsOf caller.1 caller.2
        let c := (Concourse.ofCourses r courses).after turns
        c.service.HoldsValid ∧
          ∀ i w ts found, callers[i]? = some (w, ts) → c.answer? i = some found →
            List.Forall₂ Task.ShowsValid ts found) ∧
      ∀ u : Update, u.validate = .ok () ↔
        u.isEmpty = false ∧ ∀ base now, base.IsValid → (u.apply base now).IsValid := by
  have hstraight : store.IsStraight := by
    cases hread : store.record? with
    | none => exact hpath hread
    | some s => exact RecordStore.isStraight_of_record? hread
  have hservice : r.HoldsValid := Session.holdsValid_opened ⟨hkept, hstraight, hrecord⟩ hr
  refine ⟨fun thread steps tries hsteps => ?_, fun callers turns => ?_, fun _ =>
    Update.validate_eq_ok_iff⟩
  · have hends := Steps.ends_fits keeps_machine tries steps hsteps []
    obtain ⟨hfits, hlast⟩ := hends.alone (s := { session := .opened r thread }) hservice
    exact ⟨hservice, hends, hlast, hfits⟩
  · have hafter := (holdsValid_ofCourses hservice callers).after turns
    refine ⟨hafter.service, fun i w ts found hcaller hfound => ?_⟩
    exact hafter.answer hfound (w, ts) hcaller

/-- Two units side by side, one that writes a time zone with blanks around it and reads it,
and one in which a request is handled; then a command that is refused, and one that shows
the settings. -/
def changesAround : Steps Task Unit :=
  .cons (.join
    (.cons ⟨7⟩ (.cons (.op (.use (.write none { timeZone := some " 日本 " } .epoch)))
        (.cons (.op (.use (.get none false))) .nil)) true (.ok ())
      (.cons ⟨8⟩ (.cons (.op (.handle Http.lowerUploads .epoch)) .nil) false (.err none) .nil)))
    (.cons (.op (.changeSettings { maxUploadMb := some 0 } .epoch))
      (.cons (.op (.showSettings true)) .nil))

theorem records_stay_valid_around :
    ∃ r, Service.ofBackend Session.storedOnce {} = .ok r ∧
      Session.storedOnce.record? = some .default ∧
      let done := (changesAround.perform machine false).alone { session := .opened r ⟨0⟩ }
      done.2.HoldsValid ∧ changesAround.Fits (fun _ => Task.FindsValid) [] done.1.1 := by
  have hr : Service.ofBackend Session.storedOnce {} = .ok _ := rfl
  have hkept : Session.storedOnce.IsKept := trivial
  have hread : Session.storedOnce.record? = some .default :=
    FileStore.record?_eq_some_iff.mpr
      (FileStore.recordAt_of_readBytes Settings.isRegular_default (Session.readBytes_oneFile _))
  have hpath : Session.storedOnce.record? = none → Session.storedOnce.IsStraight := by
    intro hnone
    rw [hread] at hnone
    cases hnone
  have hrecord : ∀ s, Session.storedOnce.record? = some s → s.IsValid := by
    intro s hs
    rw [hread] at hs
    cases hs
    exact Settings.isValid_default
  have hlawful : changesAround.Every Task.IsLawful := by
    simp [changesAround, Steps.Every, Step.Every, Lanes.Every, Task.IsLawful]
  have h := (records_stay_valid hkept hpath hrecord hr).1 ⟨0⟩ changesAround false hlawful
  exact ⟨_, hr, hread, h.2.2⟩

/-- A record with a limit that no update is accepted with. -/
def overfull : Settings :=
  { maxUploadMb := 0 }

/-- A service on a file whose path turns back to such a record through a directory that is
missing. -/
def turnedBackToOverfull : Service RecordStore :=
  Session.onFile "x/../y" (Session.blocked overfull.prettyText.toUTF8)

/-- There is no record to be read, and after a write, which fails, there is an invalid one:
the directory that the write makes before it fails is what the path turns back through. -/
theorem invalid_record_read :
    let s := Session.opened turnedBackToOverfull ⟨0⟩
    let t := ((Session.perform none (.write none { enableJira := some true } .epoch)).alone s).2
    Service.ofBackend turnedBackToOverfull.backend {} = .ok turnedBackToOverfull ∧
      turnedBackToOverfull.backend.IsKept ∧ turnedBackToOverfull.backend.record? = none ∧
      ((Session.perform none .fetch).alone s).1 = some (.settings (.error .recordNotFound)) ∧
      ((Session.perform none .fetch).alone t).1 = some (.settings (.ok overfull)) ∧
      ¬ overfull.IsValid := by
  intro s t
  let bytes : ByteArray := overfull.prettyText.toUTF8
  let written : Files.Tree :=
    (FileStore.commit "x/../y" Session.switchedOn .epoch (Session.blocked bytes)).2
  have hstore : s.service.backend = ⟨.file "x/../y", Session.blocked bytes⟩ := rfl
  have hbackend : t.service.backend = ⟨.file "x/../y", written⟩ :=
    (Session.service_written "x/../y" (Session.blocked bytes)).2
  have hwritten : written.toRawTree = (Session.blocked bytes).addDirectory ⟨1, "x"⟩ :=
    (Session.commit_blocked bytes Session.switchedOn .epoch).2
  have hfetch {s : Session RecordStore} {tree : Files.Tree}
      (h : s.service.backend = ⟨.file "x/../y", tree⟩) :
      ((Session.perform none .fetch).alone s).1 =
        some (.settings (FileStore.recordAt "x/../y" tree)) := by
    have hload : (Backend.load s.service.backend).2 =
        .now (FileStore.recordAt "x/../y" tree) := by
      rw [h, RecordStore.load_file]
    rw [Session.perform_fetch, Service.fetching_of_now hload none]
    rfl
  refine ⟨rfl, trivial, ?_, ?_, ?_, ?_⟩
  · change (FileStore.recordAt "x/../y" (Session.blocked bytes)).toOption = none
    rw [Session.recordAt_blocked]
    rfl
  · rw [hfetch hstore, Session.recordAt_blocked]
  · have hregular : overfull.IsRegular := Settings.isRegular_default
    rw [hfetch hbackend, hwritten,
      FileStore.recordAt_of_readBytes hregular (Session.readBytes_blocked bytes)]
  · intro hvalid
    have huploadMb : Settings.AcceptsUploadMb 0 := hvalid.uploadMb
    revert huploadMb
    decide

end Scenario
end ScopedSettings
