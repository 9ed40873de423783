/-
The service that a command is carried out with.

The variables that hold in the workspace are read first, and a fault of theirs is the end of
it. A file named on the command line then takes the place of the one they name, and the
configuration is examined once more: but it has been found valid as it was, so that only an
empty name is refused now (`startService_of_ok`).
-/
import ScopedSettings.CommandLine.Maintenance
import ScopedSettings.Proofs.Config.Environment

namespace ScopedSettings.CommandLine

open Config

/-- A service as it is started: an empty cache, and the invalidation listener alone. -/
def started (c : Config) (tree : Files.Tree) : Service RecordStore where
  backend := .ofMedium c.medium tree
  fetchTimeout := c.fetchTimeout
  channel := .ofCapacity c.eventCapacity
  listeners := [.invalidation]

/-- The configuration with the record in the file named on the command line, if one is. -/
def redirected (settingsFile : Option String) (c : Config) : Config :=
  { c with medium := (settingsFile.map .file).getD c.medium }

section Starting

variable {settingsFile : Option String} {environment : Variables} {tree : Files.Tree}
  {c : Config} {e : SettingsError}

theorem ofConfig_of_valid (h : c.validate = .ok ()) :
    Service.ofConfig c tree = .ok (started c tree) := by
  unfold Service.ofConfig Service.ofBackend
  rw [h]
  rfl

theorem ofConfig_of_invalid (h : c.validate = .error e) :
    Service.ofConfig c tree = .error e := by
  unfold Service.ofConfig Service.ofBackend
  rw [h]
  rfl

theorem startService_of_error (h : ofVariables (variablesIn tree environment) = .error e) :
    startService settingsFile environment tree =
      .error (.of "Invalid settings configuration" e) := by
  unfold startService
  rw [h]

/-- With the variables read, only a file with an empty name is refused. -/
theorem startService_of_ok (h : ofVariables (variablesIn tree environment) = .ok c) :
    startService settingsFile environment tree =
      if settingsFile = some "" then
        .error (.of "Failed to initialize settings runtime"
          (.config Fault.emptyPath.message))
      else .ok (started (redirected settingsFile c) tree) := by
  have hvalid := (ofVariables_eq_ok_iff.mp h).validate
  unfold startService
  rw [h]
  cases settingsFile with
  | none =>
    dsimp only
    rw [ofConfig_of_valid hvalid]
    rfl
  | some path =>
    dsimp only
    by_cases hempty : path = ""
    · subst hempty
      rw [ofConfig_of_invalid (validate_at_empty hvalid), if_pos rfl]
    · have hfile : Medium.file path ≠ .file "" := fun heq => hempty (Medium.file.inj heq)
      rw [ofConfig_of_valid (validate_at hvalid hfile),
        if_neg fun heq => hempty (Option.some.inj heq)]
      rfl

end Starting

/-- Whatever variables are set: they give a configuration just where the timeout and the
capacity spell numbers, as far as they are set, and the capacity is not zero. It is the one
that they describe, and a valid one; and where there is none, the error is the first offence,
the timeout's before the capacity's. A valid configuration with a timeout of whole
milliseconds, or none, and a path that is not blank is read back from its variables. And what
they make of a configuration is what a service is started with where they hold, but for a
file named on the command line: it comes first, and is refused if the name is empty. Whether
there is room for as many events as are to be kept is not asked here. -/
theorem environment_configures (vs : Variables) :
    ((∃ c, ofVariables vs = .ok c) ↔
      (∀ raw, vs.get? timeoutVariable = some raw → ∃ n, Spells raw n) ∧
        ∀ raw, vs.get? capacityVariable = some raw → ∃ n, Spells raw n ∧ n ≠ 0) ∧
      (∀ c, ofVariables vs = .ok c ↔ Described vs c) ∧
      (∀ c, ofVariables vs = .ok c → c.validate = .ok ()) ∧
      (∀ e, ofVariables vs = .error e ↔ FirstOffence vs e) ∧
      (∀ c : Config, c.validate = .ok () → c.eventCapacity < UInt64.size →
        (∀ d, c.fetchTimeout = some d → ∃ ms < UInt64.size, d = .ofMillis ms) →
        (∀ path, c.medium = .file path → Text.isBlankText path = false) →
        ofVariables c.toVariables = .ok c) ∧
      ∀ (settingsFile : Option String) (environment : Variables) (tree : Files.Tree),
        variablesIn tree environment = vs →
        (∀ e, FirstOffence vs e →
          startService settingsFile environment tree =
            .error (.of "Invalid settings configuration" e)) ∧
          ∀ c, Described vs c →
            startService settingsFile environment tree =
              if settingsFile = some "" then
                .error (.of "Failed to initialize settings runtime"
                  (.config Fault.emptyPath.message))
              else .ok (started (redirected settingsFile c) tree) := by
  refine ⟨exists_ofVariables_iff, fun _ => ofVariables_eq_ok_iff,
    fun c hread => (ofVariables_eq_ok_iff.mp hread).validate, fun _ => ofVariables_eq_error_iff,
    fun c => ofVariables_toVariables, ?_⟩
  rintro settingsFile environment tree rfl
  exact ⟨fun e hoffence => startService_of_error (ofVariables_eq_error_iff.mpr hoffence),
    fun c hdescribed => startService_of_ok (ofVariables_eq_ok_iff.mpr hdescribed)⟩

/-- A path with blanks, and numbers spelled with blanks, zeros and a sign. -/
def spelledOut : Variables := [
  ("WARDEN_SETTINGS_FILE", " s.json "),
  ("WARDEN_FETCH_TIMEOUT_MS", "\t+0250 "),
  ("WARDEN_EVENT_CAPACITY", "016\n")]

theorem described_spelledOut :
    Described spelledOut ⟨.file " s.json ", some (.ofMillis 250), 16⟩ where
  medium path := by
    have hget : spelledOut.get? fileVariable = some " s.json " := rfl
    rw [hget, Medium.file.injEq, Option.some.injEq]
    exact ⟨fun heq => ⟨heq, heq ▸ by decide⟩, And.left⟩
  timeout :=
    .number rfl ⟨⟨['0', '2', '5', '0'], .inr (by decide), by decide, by simp, rfl⟩, by decide⟩
  capacity :=
    .number rfl ⟨⟨['0', '1', '6'], .inl (by decide), by decide, by simp, rfl⟩, by decide⟩
  capacity_ne_zero := by decide

theorem environment_configures_spelledOut :
    let c : Config := ⟨.file " s.json ", some (.ofMillis 250), 16⟩
    ofVariables spelledOut = .ok c ∧ c.validate = .ok () ∧ ofVariables c.toVariables = .ok c ∧
      startService (some "t.json") spelledOut {} =
        .ok (started { c with medium := .file "t.json" } {}) := by
  intro c
  obtain ⟨-, hiff, hvalid, -, hback, hstart⟩ := environment_configures spelledOut
  have hread : ofVariables spelledOut = .ok c := (hiff c).mpr described_spelledOut
  have htimeout : ∀ d, c.fetchTimeout = some d → ∃ ms < UInt64.size, d = .ofMillis ms := by
    rintro d ⟨⟩
    exact ⟨250, by decide, rfl⟩
  have hpath : ∀ path, c.medium = .file path → Text.isBlankText path = false := by
    rintro path ⟨⟩
    decide
  refine ⟨hread, hvalid c hread, hback c (hvalid c hread) (by decide) htimeout hpath, ?_⟩
  exact (hstart (some "t.json") spelledOut {} rfl).2 c described_spelledOut

end ScopedSettings.CommandLine
