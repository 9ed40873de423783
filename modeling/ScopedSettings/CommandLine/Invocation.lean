/-
What the command line asks for: to serve the settings, to show them or to
change them.
-/
import ScopedSettings.CommandLine.Grammar
import ScopedSettings.Settings.Basic

namespace ScopedSettings.CommandLine

/-- What is asked of the settings. -/
inductive SettingsAction
  | show (json : Bool)
  | change (update : Update)

/-- What is asked of the program. -/
inductive Command
  | serve (host : Option String) (port : Option Nat)
  | settings (action : SettingsAction)

/-- A command, and the record file it is to work on if one is named. -/
structure Invocation where
  settingsFile : Option String
  command : Command

/-! ## The commands -/

def programName : String := "warden"

/-- The option that names the record file; every command has it. -/
def settingsFileOption : OptionSpec :=
  { long := "settings-file", short := some 's', kind := .path }

def serveSpec : CommandSpec :=
  .mk "serve" "Start the HTTP server"
    [{ long := "host", kind := .text },
      { long := "port", short := some 'p', kind := .number 65535 }, settingsFileOption] []

def showSpec : CommandSpec :=
  .mk "show" "Print the current settings, read straight from the store"
    [{ long := "json", kind := .flag }, settingsFileOption] []

def changeSpec : CommandSpec :=
  .mk "set" "Change one or more settings"
    [{ long := "max-upload-mb", kind := .number 4294967295 },
      { long := "enable-deduplication", kind := .truth },
      { long := "enable-jira", kind := .truth },
      { long := "enable-product-grade", kind := .truth },
      { long := "enable-user-profile-editable", kind := .truth },
      { long := "time-zone", kind := .text }, settingsFileOption] []

def settingsSpec : CommandSpec :=
  .mk "settings" "Inspect or change the system settings directly" [settingsFileOption]
    [showSpec, changeSpec]

def programSpec : CommandSpec :=
  .mk programName "System settings service with request-scoped caching" [settingsFileOption]
    [serveSpec, settingsSpec]

/-! ## Reading -/

namespace Given

def text? (g : Given) (name : String) : Option String :=
  g.findSome? fun
    | (n, .text s) => if n == name then some s else none
    | _ => none

def truth? (g : Given) (name : String) : Option Bool :=
  g.findSome? fun
    | (n, .truth b) => if n == name then some b else none
    | _ => none

def number? (g : Given) (name : String) : Option Nat :=
  g.findSome? fun
    | (n, .number k) => if n == name then some k else none
    | _ => none

/-- Is a flag given? -/
def hasFlag (g : Given) (name : String) : Bool :=
  g.any fun o => o.1 == name

/-- The update that the options of a change spell. -/
def update (g : Given) : Update where
  maxUploadMb := (g.number? "max-upload-mb").map UInt32.ofNat
  enableDeduplication := g.truth? "enable-deduplication"
  enableJira := g.truth? "enable-jira"
  enableProductGrade := g.truth? "enable-product-grade"
  enableUserProfileEditable := g.truth? "enable-user-profile-editable"
  timeZone := g.text? "time-zone"

end Given

def Command.ofCommands? : Commands → Option Command
  | [_, ("serve", g)] => some (.serve (g.text? "host") (g.number? "port"))
  | [_, _, ("show", g)] => some (.settings (.show (g.hasFlag "json")))
  | [_, _, ("set", g)] => some (.settings (.change g.update))
  | _ => none

/-- The record file that is named; the innermost command's word counts. -/
def settingsFileOf (commands : Commands) : Option String :=
  commands.reverse.findSome? fun c => Given.text? c.2 settingsFileOption.long

def Invocation.ofArguments (arguments : List String) : Except UsageFault Invocation := do
  let commands ← read programSpec programName {} arguments
  match Command.ofCommands? commands with
  | some command => return { settingsFile := settingsFileOf commands, command }
  | none => throw (.nothingAsked programSpec.about)

end ScopedSettings.CommandLine
