/-
One record across launches of the program.

Nothing is left between two launches but the files, and each launch starts a service of its
own. So all that a launch knows of those before it is the text of the record, and what has to
be shown is that the text says enough: what a change writes is read back as the record it has
made (`Settled`), and whatever else comes of a launch leaves what is read as it was
(`Launch.Ends`). Then the launches that have changed the settings act on one record, whatever
launches stand between them (`launches_share_record`). A launch that only fails to flush the
directory is among them, for it has replaced the record.
-/
import ScopedSettings.CommandLine.Execution
import ScopedSettings.Proofs.CommandLine.Starting
import ScopedSettings.Proofs.Service.Courses
import ScopedSettings.Proofs.Store.CommitFrame
import ScopedSettings.Proofs.Store.OrdinaryFile

namespace ScopedSettings

open Files FileStore

namespace CommandLine

/-! ## Launches -/

/-- The exit code of an outcome in which the program ends. -/
def Outcome.code? (o : Outcome) : Option Nat :=
  o.departure?.map Departure.code

/-- Does the cause of a failure begin as it does where a record has been replaced, but its
directory could not be flushed? -/
def Failure.isUnflushed (path : String) (f : Failure) : Bool :=
  (SettingsError.storeUnavailable (String.ofList (unflushedText path))).message.toList.isPrefixOf
    f.cause.toList

/-- Does an outcome say that the record has been changed? The program has left with success, or
it was only the directory that could not be flushed after that. -/
def Outcome.hasChanged (path : String) (o : Outcome) : Bool :=
  o.code? == some 0 ||
    match o with
    | .failed f => f.isUnflushed path
    | _ => false

/-- What a change comes to, by the answer to its commit. -/
def changeOutcome : Except SettingsError Settings → Outcome
  | .ok s => .printed s.listing
  | .error e => .failed (.of "Failed to update system settings" e)

/-- A launch of the program: its arguments, the variables that are set, and the clock. -/
structure Launch where
  arguments : List String
  environment : Variables := []
  clock : Instant := .epoch

namespace Launch

/-- What comes of a launch, and the files afterwards. -/
def run (l : Launch) (t : Tree) : Outcome × Tree :=
  execute l.arguments l.environment t l.clock

/-- What is asked of the settings, unless the arguments are refused or ask for help. -/
def action? (l : Launch) : Option SettingsAction :=
  match Invocation.ofArguments l.arguments with
  | .ok ⟨_, .settings action⟩ => some action
  | _ => none

/-- Does the launch ask for nothing but to show or to change the settings in a file? Its
arguments may be refused as well. -/
def Concerns (path : String) (l : Launch) : Prop :=
  ∀ invocation, Invocation.ofArguments l.arguments = .ok invocation →
    invocation.settingsFile = some path ∧ ∃ action, invocation.command = .settings action

/-- Do the variables that hold in the workspace describe a configuration? -/
def Configured (t : Tree) (l : Launch) : Prop :=
  ∃ config, Config.ofVariables (Config.variablesIn t l.environment) = .ok config

/-- The change that the launch has made, if it says so. -/
def made? (path : String) (l : Launch) (t : Tree) : Option (Update × Instant) :=
  match l.action? with
  | some (.change u) => if (l.run t).1.hasChanged path then some (u, l.clock) else none
  | _ => none

end Launch

/-- The files after some launches, one after another. -/
def filesAfter (launches : List Launch) (t : Tree) : Tree :=
  launches.foldl (fun t l => (l.run t).2) t

/-- The changes that launches have made, in order. -/
def changesMade (path : String) : List Launch → Tree → List (Update × Instant)
  | [], _ => []
  | l :: launches, t => (l.made? path t).toList ++ changesMade path launches (l.run t).2

/-- The record that changes lead to from the defaults. -/
def recordOf (changes : List (Update × Instant)) : Settings :=
  changes.foldl (fun s c => c.1.apply s c.2) .default

/-- What a file holds once changes have been made to the record in it: nothing is there
before the first one. -/
def bytesOf : List (Update × Instant) → Option ByteArray
  | [] => none
  | changes => some (recordOf changes).prettyText.toUTF8

theorem recordOf_concat (changes : List (Update × Instant)) (u : Update) (now : Instant) :
    recordOf (changes ++ [(u, now)]) = u.apply (recordOf changes) now := by
  simp [recordOf]

theorem bytesOf_concat (changes : List (Update × Instant)) (u : Update) (now : Instant) :
    bytesOf (changes ++ [(u, now)]) = some (u.apply (recordOf changes) now).prettyText.toUTF8 := by
  rw [← recordOf_concat]
  cases changes <;> rfl

theorem isRegular_recordOf (changes : List (Update × Instant)) : (recordOf changes).IsRegular := by
  rcases List.eq_nil_or_concat changes with rfl | ⟨before, ⟨u, now⟩, rfl⟩
  · exact Settings.isRegular_default
  · rw [List.concat_eq_append, recordOf_concat]
    exact Settings.isRegular_apply u _ now

/-! ## Failures -/

/-- No other error begins as one of the store does. -/
theorem isPrefixOf_message (reason : String) (e : SettingsError) :
    (SettingsError.storeUnavailable reason).message.toList.isPrefixOf e.message.toList = true ↔
      ∃ reason', e = .storeUnavailable reason' ∧ reason.toList <+: reason'.toList := by
  rw [List.isPrefixOf_iff_prefix]
  unfold SettingsError.message
  dsimp only
  cases e with
  | storeUnavailable reason' =>
    simp only [String.toList_append, List.prefix_append_right_inj,
      SettingsError.storeUnavailable.injEq, exists_eq_left']
  | recordNotFound | validation r | serialization r | config r =>
    simp only [reduceCtorEq, false_and, exists_false, iff_false]
    intro h
    have htake := h.take 3
    simp [String.toList_append] at htake

theorem Failure.isUnflushed_of (path context : String) (e : SettingsError) :
    (Failure.of context e).isUnflushed path = FileStore.isUnflushed path e := by
  rw [Bool.eq_iff_iff]
  refine (isPrefixOf_message _ e).trans ?_
  unfold FileStore.isUnflushed
  cases e <;> simp [List.isPrefixOf_iff_prefix]

@[simp] theorem Outcome.hasChanged_failed (path context : String) (e : SettingsError) :
    (Outcome.failed (.of context e)).hasChanged path = FileStore.isUnflushed path e := by
  have hcode : (Outcome.failed (.of context e)).code? = some 1 := rfl
  unfold Outcome.hasChanged
  rw [hcode, ← Failure.isUnflushed_of path context e]
  exact Bool.false_or _

@[simp] theorem Outcome.hasChanged_printed (path text : String) :
    (Outcome.printed text).hasChanged path = true := rfl

/-! ## What a launch does -/

/-- Do the files hold the record that changes have led to, and will they when the directory of
the path has been made? -/
structure Settled (path : String) (changes : List (Update × Instant)) (t : Tree) : Prop where
  named : path ≠ ""
  made : ∃ made, t.makeDirectories (parent path) = (.ok (), made) ∧
    Holds path made (bytesOf changes)
  alone : SiblingAlone path t
  read : t.readBytes path = (bytesOf changes).elim (.error .notFound) .ok

variable {path : String} {changes : List (Update × Instant)} {t t' : Tree}

/-- Where the directory is there it need not be made. -/
theorem Settled.of_directory (hnamed : path ≠ "") (hdirectory : t.isDirectory (parent path) = true)
    (hholds : Holds path t (bytesOf changes)) (halone : SiblingAlone path t) :
    Settled path changes t := by
  have hmade : t.makeDirectories (parent path) = (.ok (), t) :=
    Tree.lift_eq (RawTree.makeDirectories_of_isDirectory hdirectory)
  exact ⟨hnamed, ⟨t, hmade, hholds⟩, halone, hholds.read⟩

theorem Settled.recordAt_eq (h : Settled path changes t) :
    FileStore.recordAt path t =
      if changes = [] then .error .recordNotFound else .ok (recordOf changes) := by
  have hread := h.read
  cases changes with
  | nil => exact recordAt_of_missing hread
  | cons c changes => exact recordAt_of_readBytes (isRegular_recordOf _) hread

/-- A reader is given the record, or the defaults while there is none. -/
theorem Settled.orDefault_eq (h : Settled path changes t) :
    Course.orDefault (FileStore.recordAt path t) = .ok (recordOf changes) := by
  rw [h.recordAt_eq]
  cases changes <;> rfl

theorem Settled.baseOf_eq (h : Settled path changes t) :
    baseOf (FileStore.recordAt path t) = .ok (recordOf changes) := by
  rw [h.recordAt_eq]
  cases changes <;> rfl

/-- A commit that has replaced the record, as its answer says, has made its change to it, and
another one has left it. -/
theorem Settled.commit (h : Settled path changes t) {u : Update} {now : Instant}
    {answer : Except SettingsError Settings}
    (hcommit : FileStore.commit path u now t = (answer, t')) :
    Settled path (changes ++ [(u, now)]) t' ∧
      (answer = .ok (u.apply (recordOf changes) now) ∨
        ∃ e, answer = .error e ∧ FileStore.isUnflushed path e = true) ∨
    (Settled path changes t' ∧ Withdrawn path t t') ∧
      ∃ e, answer = .error e ∧ FileStore.isUnflushed path e = false := by
  obtain ⟨made, hmade, hholds⟩ := h.made
  rcases commit_outcome hcommit with
    ⟨base, hbase, hanswer, hreplaces⟩ | ⟨e, rfl, he, rfl | ⟨base, hbase, hwithdraws⟩⟩
  · cases hbase.symm.trans h.baseOf_eq
    obtain ⟨hread, hdirectory⟩ := hholds.of_replaces hmade hreplaces
    rw [← bytesOf_concat] at hread
    refine .inl ⟨.of_directory h.named hdirectory hread
      (h.alone.of_replaces t.sound hreplaces), ?_⟩
    cases answer with
    | ok s => exact .inl (congrArg Except.ok hanswer)
    | error e => exact .inr ⟨e, rfl, hanswer⟩
  · exact .inr ⟨⟨h, .refl path t'⟩, e, rfl, he⟩
  · obtain ⟨hread, hdirectory⟩ := hholds.of_withdraws hmade hwithdraws
    have hsettled : Settled path changes t' := .of_directory h.named hdirectory hread
      (h.alone.of_withdraws t.sound hwithdraws hdirectory)
    exact .inr ⟨⟨hsettled, hwithdraws.withdrawn h.alone hbase⟩, e, rfl, he⟩

/-- A service on a named file is started just where the variables describe a configuration. -/
theorem startService_cases (hpath : path ≠ "") (l : Launch) (t : Tree) :
    (l.Configured t ∧ ∃ service : Service RecordStore,
        startService (some path) l.environment t = .ok service ∧
          service.backend = ⟨.file path, t⟩) ∨
      (¬ l.Configured t ∧ ∃ e, startService (some path) l.environment t =
        .error (.of "Invalid settings configuration" e) ∧
          Config.ofVariables (Config.variablesIn t l.environment) = .error e) := by
  unfold Launch.Configured
  cases hconfig : Config.ofVariables (Config.variablesIn t l.environment) with
  | error e => exact .inr ⟨by simp, e, startService_of_error hconfig, rfl⟩
  | ok config =>
    have hstarted : startService (some path) l.environment t = _ := startService_of_ok hconfig
    rw [if_neg fun h => hpath (Option.some.inj h)] at hstarted
    exact .inl ⟨⟨config, rfl⟩, _, hstarted, rfl⟩

/-- Showing the settings shows the record, and leaves the files alone. -/
theorem printing_showSettings (h : Settled path changes t) {service : Service RecordStore}
    (hbackend : service.backend = ⟨.file path, t⟩) (json : Bool) :
    printing service (showSettings json) =
      (.printed (if json then (recordOf changes).prettyText else (recordOf changes).listing),
        t) := by
  have hload := RecordStore.load_file path t
  rw [← hbackend] at hload
  have hfetch := Service.fetching_of_now (r := service) (congrArg Prod.snd hload) none
  have htree : service.loaded.backend.tree = t := by
    change (Backend.load service.backend).1.tree = t
    rw [hload, hbackend]
  unfold printing showSettings
  rw [Service.perform_bind, Service.perform_fetchOrDefault, hfetch]
  simp only [Option.map_some, h.orDefault_eq]
  change (Outcome.printed _, service.loaded.backend.tree) = _
  rw [htree]

/-- A change that is refused leaves the files alone. -/
theorem printing_changeSettings_refused {u : Update} {e : SettingsError}
    (hrefused : u.validate = .error e) {service : Service RecordStore}
    (hbackend : service.backend = ⟨.file path, t⟩) (w : WorkerId) (now : Instant) :
    printing service (changeSettings w u now) =
      (.failed (.of "Failed to update system settings" e), t) := by
  unfold printing changeSettings
  rw [Service.perform_bind, Service.perform_write_refused hrefused]
  change (Outcome.failed _, service.backend.tree) = _
  rw [hbackend]

/-- A change that is let through comes to what its commit does. -/
theorem printing_changeSettings {u : Update} (hvalid : u.validate = .ok ())
    {service : Service RecordStore} (hbackend : service.backend = ⟨.file path, t⟩) (w : WorkerId)
    {now : Instant} {answer : Except SettingsError Settings}
    (hcommit : FileStore.commit path u now t = (answer, t')) :
    printing service (changeSettings w u now) = (changeOutcome answer, t') := by
  have hcommitted := RecordStore.commit_file path t u now
  rw [← hbackend, hcommit] at hcommitted
  have hanswer := Service.committing_of_now (r := service) (congrArg Prod.snd hcommitted) none
  have htree : (service.written w u now (some (answer, none))).backend.tree = t' := by
    have hbackend' : (service.written w u now (some (answer, none))).backend =
        (Backend.commit service.backend u now).1 := by
      cases answer with
      | ok s => exact Service.backend_notify _ _
      | error e => rfl
    rw [hbackend', hcommitted]
  unfold printing changeSettings
  rw [Service.perform_bind, Service.perform_write_accepted hvalid, hanswer]
  cases answer with
  | ok s =>
    change (Outcome.printed _, _) = _
    rw [htree]
    rfl
  | error e =>
    change (Outcome.failed _, _) = _
    rw [htree]
    rfl

/-- How a launch ends while the files hold the record that changes have led to. -/
inductive Launch.Ends (path : String) (changes : List (Update × Instant)) (t : Tree) (l : Launch) :
    Outcome → Tree → Prop
  | refused {f : UsageFault} (hasked : l.action? = none) : Ends path changes t l (.refused f) t
  | unconfigured {e : SettingsError} {action : SettingsAction} (hasked : l.action? = some action)
    (hfault : ¬ l.Configured t) (hquiet : FileStore.isUnflushed path e = false) :
    Ends path changes t l (.failed (.of "Invalid settings configuration" e)) t
  | shown {json : Bool} (hasked : l.action? = some (.show json)) (hconfig : l.Configured t) :
    Ends path changes t l
      (.printed (if json then (recordOf changes).prettyText else (recordOf changes).listing)) t
  | invalid {u : Update} {e : SettingsError} (hasked : l.action? = some (.change u))
    (hrefused : u.validate = .error e) :
    Ends path changes t l (.failed (.of "Failed to update system settings" e)) t
  | committed {u : Update} {answer : Except SettingsError Settings} {t' : Tree}
    (hasked : l.action? = some (.change u)) (hconfig : l.Configured t)
    (hvalid : u.validate = .ok ())
    (hcommit : FileStore.commit path u l.clock t = (answer, t')) :
    Ends path changes t l (changeOutcome answer) t'

variable {l : Launch}

theorem Settled.ends (h : Settled path changes t) (hl : l.Concerns path) :
    l.Ends path changes t (l.run t).1 (l.run t).2 := by
  have hasked : l.action? = match Invocation.ofArguments l.arguments with
    | .ok ⟨_, .settings action⟩ => some action
    | _ => none := rfl
  unfold Launch.run execute
  cases hread : Invocation.ofArguments l.arguments with
  | error f =>
    rw [hread] at hasked
    exact .refused hasked
  | ok invocation =>
    rw [hread] at hasked
    obtain ⟨settingsFile, command⟩ := invocation
    obtain ⟨hfile, action, haction⟩ := hl _ hread
    dsimp only at hfile haction
    subst hfile haction
    dsimp only at hasked ⊢
    rcases startService_cases h.named l t with
      ⟨hconfig, service, hstarted, hbackend⟩ | ⟨hfault, e, hfailed, hoffence⟩
    · rw [hstarted]
      cases action with
      | «show» json =>
        simp only [Command.run, printing_showSettings h hbackend json]
        exact .shown hasked hconfig
      | change u =>
        simp only [Command.run]
        cases hvalid : u.validate with
        | error e =>
          rw [printing_changeSettings_refused hvalid hbackend]
          exact .invalid hasked hvalid
        | ok _ =>
          cases hcommit : FileStore.commit path u l.clock t with
          | mk answer t' =>
          rw [printing_changeSettings hvalid hbackend service.nextWorker hcommit]
          exact .committed hasked hconfig hvalid hcommit
    · rw [hfailed]
      refine .unconfigured hasked hfault ?_
      cases Config.ofVariables_eq_error_iff.mp hoffence <;> rfl

/-- The files hold the record still, with the launch's change made to it if it has made one. -/
theorem Settled.run (h : Settled path changes t) (hl : l.Concerns path) :
    Settled path (changes ++ (l.made? path t).toList) (l.run t).2 := by
  have hends := h.ends hl
  unfold Launch.made?
  generalize l.run t = ended at hends ⊢
  obtain ⟨o, t'⟩ := ended
  cases hends with
  | refused hasked | shown hasked hconfig => simpa [hasked] using h
  | unconfigured hasked hfault hquiet =>
    rename_i action
    cases action <;> simpa [hasked, hquiet] using h
  | @invalid u e hasked hrefused =>
    have hquiet : FileStore.isUnflushed path e = false :=
      RecordStore.isUnflushed_of_refused ⟨.file path, .workspace⟩ hrefused
    simpa [hasked, hquiet] using h
  | committed hasked hconfig hvalid hcommit =>
    rcases h.commit hcommit with ⟨hsettled, rfl | ⟨e, rfl, he⟩⟩ | ⟨⟨hsettled, -⟩, e, rfl, he⟩
    · simpa [hasked, changeOutcome] using hsettled
    · simpa [hasked, changeOutcome, he] using hsettled
    · simpa [hasked, changeOutcome, he] using hsettled

theorem Settled.launches (h : Settled path changes t) {launches : List Launch}
    (hl : ∀ l ∈ launches, l.Concerns path) :
    Settled path (changes ++ changesMade path launches t) (filesAfter launches t) := by
  induction launches generalizing changes t with
  | nil => simpa [changesMade, filesAfter] using h
  | cons l launches ih =>
    have hnext := ih (h.run (hl l List.mem_cons_self)) fun l hmem =>
      hl l (List.mem_cons_of_mem _ hmem)
    rw [List.append_assoc] at hnext
    exact hnext

/-- Where nothing is refused and nothing stands in the way it stays so. -/
theorem Settled.ordinary (h : Settled path changes t) (hpath : t.Ordinary path)
    (hl : l.Concerns path) : (l.run t).2.Ordinary path := by
  have hends := h.ends hl
  generalize l.run t = ended at hends ⊢
  obtain ⟨o, t'⟩ := ended
  cases hends with
  | refused | unconfigured | shown | invalid => exact hpath
  | @committed u _ _ _ _ _ hcommit =>
    obtain ⟨_, hordinary, hpath', -⟩ := commit_of_ordinary hpath h.baseOf_eq u l.clock
    cases hcommit.symm.trans hordinary
    exact hpath'

namespace Launch.Ends

variable {o : Outcome} (h : l.Ends path changes t o t')
include h

/-- One that has not made its change leaves every file but the sibling. -/
theorem withdrawn (hsettled : Settled path changes t)
    (hunmade : ∀ u, l.action? = some (.change u) → o.hasChanged path = false) :
    Withdrawn path t t' := by
  cases h with
  | refused | unconfigured | shown | invalid => exact .refl path t
  | committed hasked hconfig hvalid hcommit =>
    have hunchanged := hunmade _ hasked
    rcases hsettled.commit hcommit with ⟨-, rfl | ⟨e, rfl, he⟩⟩ | ⟨⟨-, hwithdrawn⟩, -⟩
    · cases hunchanged
    · rw [changeOutcome, Outcome.hasChanged_failed, he] at hunchanged
      cases hunchanged
    · exact hwithdrawn

end Launch.Ends

end CommandLine
end ScopedSettings
