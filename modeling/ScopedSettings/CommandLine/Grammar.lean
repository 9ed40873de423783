/-
Command lines: options and subcommands, and how arguments are read by them.

A command has options, and either subcommands, one of which has to follow, or
none. An option's value stands in the argument after it or is attached to it.
An attached value is read at once, a separate one only when the next option
begins or the command line has been read to its end; by then a fault further
right may already have been found.

A command with subcommands has one more, which explains the others.
-/
import ScopedSettings.Text.Terminal

namespace ScopedSettings.CommandLine

/-- What an option takes. -/
inductive OptionKind
  | flag
  | text
  | path
  | truth
  | number (greatest : Nat)
  deriving DecidableEq, Repr

/-- An option. -/
structure OptionSpec where
  long : String
  short : Option Char := none
  kind : OptionKind
  deriving DecidableEq, Repr

/-- A command. -/
inductive CommandSpec
  | mk (name about : String) (options : List OptionSpec) (subcommands : List CommandSpec)

namespace CommandSpec

def name : CommandSpec → String
  | .mk name _ _ _ => name

def about : CommandSpec → String
  | .mk _ about _ _ => about

def options : CommandSpec → List OptionSpec
  | .mk _ _ options _ => options

def subcommands : CommandSpec → List CommandSpec
  | .mk _ _ _ subcommands => subcommands

def help : CommandSpec :=
  .mk "help" "Print this message or the help of the given subcommand(s)" [] []

/-- The subcommand of a name; help is among the subcommands wherever there are any. -/
def subcommand? (spec : CommandSpec) (name : String) : Option CommandSpec :=
  match spec.subcommands with
  | [] => none
  | subcommands => (subcommands ++ [help]).find? fun c => c.name == name

end CommandSpec

/-- The value of an option. -/
inductive OptionValue
  | flag
  | text (s : String)
  | truth (b : Bool)
  | number (n : Nat)
  deriving DecidableEq, Repr

/-- The option as messages show it, with its value in capitals. -/
def OptionSpec.display (o : OptionSpec) : String :=
  match o.kind with
  | .flag => "--" ++ o.long
  | _ =>
    "--" ++ o.long ++ " <" ++
      String.ofList (o.long.toList.map fun c => if c == '-' then '_' else c.toUpper) ++ ">"

/-- Why a text is no number. -/
inductive NumberFault
  | empty
  | digit
  | tooLarge
  | tooSmall
  | outOfRange (n : Int) (greatest : Nat)
  deriving DecidableEq, Repr

def NumberFault.message : NumberFault → String
  | .empty => "cannot parse integer from empty string"
  | .digit => "invalid digit found in string"
  | .tooLarge => "number too large to fit in target type"
  | .tooSmall => "number too small to fit in target type"
  | .outOfRange n greatest => toString n ++ " is not in 0..=" ++ toString greatest

/-- Why a command line is refused. -/
inductive UsageFault
  /-- Nothing has been asked of a command that needs a subcommand: it says what it is for. -/
  | nothingAsked (about : String)
  | helpAsked (about : String)
  | unknownSubcommand (name : String)
  | missingSubcommand (command : String)
  | unknownArgument (argument : String)
  | missingValue (option : String)
  | unexpectedValue (value option : String)
  | notTruth (value option : String)
  | notNumber (value option : String) (fault : NumberFault)
  | repeated (option : String)
  deriving DecidableEq, Repr

/-- A word of the command line between quotes, as far as it shows. -/
def cited (word : String) : String :=
  "'" ++ Text.shown word ++ "'"

def UsageFault.message : UsageFault → String
  | .nothingAsked about => about
  | .helpAsked about => about
  | .unknownSubcommand name => "error: unrecognized subcommand " ++ cited name
  | .missingSubcommand command =>
    "error: '" ++ command ++ "' requires a subcommand but one was not provided"
  | .unknownArgument argument => "error: unexpected argument " ++ cited argument ++ " found"
  | .missingValue option =>
    "error: a value is required for '" ++ option ++ "' but none was supplied"
  | .unexpectedValue value option =>
    "error: unexpected value " ++ cited value ++ " for '" ++ option ++
      "' found; no more were expected"
  | .notTruth value option => "error: invalid value " ++ cited value ++ " for '" ++ option ++ "'"
  | .notNumber value option fault =>
    "error: invalid value " ++ cited value ++ " for '" ++ option ++ "': " ++ fault.message
  | .repeated option => "error: the argument '" ++ option ++ "' cannot be used multiple times"

/-! ## Values -/

/-- The number that digits spell behind those read so far, up to a greatest one. The
digits are read one by one: the first that is none, or leads too far, is reported. -/
def readDigits (greatest : Nat) (tooFar : NumberFault) (n : Nat) :
    List Char → Except NumberFault Nat
  | [] => .ok n
  | c :: cs =>
    if '0' ≤ c ∧ c ≤ '9' then
      let n := n * 10 + (c.toNat - '0'.toNat)
      if n ≤ greatest then readDigits greatest tooFar n cs else .error tooFar
    else .error .digit

/-- The digits of a number behind its sign, and whether that is a minus. -/
def signed : List Char → Bool × List Char
  | '-' :: rest => (true, rest)
  | '+' :: rest => (false, rest)
  | cs => (false, cs)

/-- The whole number a text spells, within sixty-four bits. -/
def integer (s : String) : Except NumberFault Int :=
  match s.toList with
  | [] => .error .empty
  | cs =>
    match signed cs with
    | (_, []) => .error .digit
    | (true, ds) => (readDigits (UInt64.size / 2) .tooSmall 0 ds).map fun n => -(n : Int)
    | (false, ds) => (readDigits (UInt64.size / 2 - 1) .tooLarge 0 ds).map Int.ofNat

def OptionSpec.value (o : OptionSpec) (s : String) : Except UsageFault OptionValue :=
  match o.kind with
  | .flag => .error (.unexpectedValue s o.display)
  | .text => .ok (.text s)
  | .path => if s.isEmpty then .error (.missingValue o.display) else .ok (.text s)
  | .truth =>
    if s == "true" then .ok (.truth true)
    else if s == "false" then .ok (.truth false)
    else if s.isEmpty then .error (.missingValue o.display)
    else .error (.notTruth s o.display)
  | .number greatest =>
    match integer s with
    | .error f => .error (.notNumber s o.display f)
    | .ok n =>
      if 0 ≤ n ∧ n ≤ greatest then .ok (.number n.toNat)
      else .error (.notNumber s o.display (.outOfRange n greatest))

/-! ## Reading -/

/-- The options a command has been given, by their long names. -/
abbrev Given := List (String × OptionValue)

/-- An option that waits for its value or holds one not yet read. -/
structure Pending where
  option : OptionSpec
  value : Option String

/-- What has been read of one command. -/
structure Level where
  given : Given := []
  pending : Option Pending := none
  /-- Has `--` been read, after which everything is a plain argument? -/
  plain : Bool := false

/-- A command line that has been read: the commands from the outermost in, each
with its options. -/
abbrev Commands := List (String × Given)

namespace Level

def give (l : Level) (o : OptionSpec) (v : OptionValue) : Level :=
  { l with given := l.given ++ [(o.long, v)] }

/-- Has an option been given? -/
def has (l : Level) (o : OptionSpec) : Bool :=
  l.given.any fun g => g.1 == o.long

/-- The level with an option's value read; an option is given once. -/
def accept (l : Level) (o : OptionSpec) (value : String) : Except UsageFault Level :=
  if l.has o then .error (.repeated o.display)
  else (o.value value).map (l.give o)

/-- The level with the value read that was put off. -/
def settle (l : Level) : Except UsageFault Level :=
  match l.pending with
  | none => .ok l
  | some ⟨o, none⟩ => .error (.missingValue o.display)
  | some ⟨o, some value⟩ => { l with pending := none }.accept o value

/-- Does an option wait for its value? -/
def awaitsValue (l : Level) : Bool :=
  match l.pending with
  | some ⟨_, none⟩ => true
  | _ => false

/-- An option is read, with the value attached to it if there is one. -/
def takeOption (l : Level) (o : OptionSpec) (attached : Option String) :
    Except UsageFault Level :=
  match o.kind, attached with
  | .flag, some value => .error (.unexpectedValue value o.display)
  | .flag, none => do
    let l ← l.settle
    if l.has o then throw (.repeated o.display) else return l.give o .flag
  | _, some value => do (← l.settle).accept o value
  | _, none => do return { ← l.settle with pending := some ⟨o, none⟩ }

end Level

/-- An argument, by the dashes it starts with. -/
inductive Argument
  | separator
  | long (name : String) (attached : Option String)
  | short (letters : List Char)
  | plain (s : String)

/-- A text cut at its first equals sign. -/
def cutEquals (cs : List Char) : String × Option String :=
  match cs.dropWhile (· != '=') with
  | [] => (String.ofList cs, none)
  | _ :: value => (String.ofList (cs.takeWhile (· != '=')), some (String.ofList value))

/-- The form of an argument. A single dash is a plain one. -/
def Argument.of (s : String) : Argument :=
  match s.toList with
  | ['-', '-'] => .separator
  | '-' :: '-' :: rest => let (name, attached) := cutEquals rest; .long name attached
  | '-' :: c :: rest => .short (c :: rest)
  | _ => .plain s

/-- Asks for help: what was put off is read first. -/
def askHelp (spec : CommandSpec) (l : Level) : Except UsageFault Level :=
  match l.settle with
  | .ok _ => .error (.helpAsked spec.about)
  | .error f => .error f

/-- Short options in one argument: flags follow one another, and the first option
that takes a value takes what is left, after an equals sign if there is one. -/
def readShort (spec : CommandSpec) (l : Level) : List Char → Except UsageFault Level
  | [] => .ok l
  | c :: rest =>
    match spec.options.find? fun o => o.short == some c with
    | none =>
      if c == 'h' then askHelp spec l
      else .error (.unknownArgument (String.ofList ['-', c]))
    | some o =>
      if o.kind = .flag then do readShort spec (← l.takeOption o none) rest
      else
        match rest with
        | [] => l.takeOption o none
        | '=' :: value => l.takeOption o (some (String.ofList value))
        | value => l.takeOption o (some (String.ofList value))

def readLong (spec : CommandSpec) (l : Level) (name : String) (attached : Option String) :
    Except UsageFault Level :=
  match spec.options.find? fun o => o.long == name with
  | some o => l.takeOption o attached
  | none =>
    if name == "help" then
      match attached with
      | none => askHelp spec l
      | some value => .error (.unexpectedValue value "--help")
    else .error (.unknownArgument ("--" ++ name))

/-- A plain argument that is neither a value nor a subcommand. -/
def strayArgument (spec : CommandSpec) (l : Level) (s : String) : UsageFault :=
  if spec.subcommands.isEmpty || (l.plain && (spec.subcommand? s).isSome) then
    .unknownArgument s
  else .unknownSubcommand s

/-- What comes of a call for help about the command that words lead to. -/
def explain (spec : CommandSpec) : List String → UsageFault
  | [] => .helpAsked spec.about
  | s :: rest =>
    match spec.subcommand? s with
    | some sub => explain sub rest
    | none => .unknownSubcommand s

/-- The end of a command line: what was put off is read, and a command that needs a
subcommand has not got one. -/
def atEnd (spec : CommandSpec) (path : String) (l : Level) : Except UsageFault Commands := do
  let l ← l.settle
  if spec.subcommands.isEmpty then return [(spec.name, l.given)]
  else if l.given.isEmpty then throw (.nothingAsked spec.about)
  else throw (.missingSubcommand path)

/-- Reads the arguments of a command; `path` is what it is called by in full. -/
def read (spec : CommandSpec) (path : String) (l : Level) :
    List String → Except UsageFault Commands
  | [] => atEnd spec path l
  | s :: rest =>
    if l.plain then .error (strayArgument spec l s)
    else
      match Argument.of s with
      | .separator => read spec path { l with plain := true } rest
      | .long name attached =>
        match readLong spec l name attached with
        | .ok l => read spec path l rest
        | .error f => .error f
      | .short letters =>
        match readShort spec l letters with
        | .ok l => read spec path l rest
        | .error f => .error f
      | .plain s =>
        match l.pending with
        | some ⟨o, none⟩ => read spec path { l with pending := some ⟨o, some s⟩ } rest
        | _ =>
          match spec.subcommand? s with
          | none => .error (strayArgument spec l s)
          | some sub =>
            if sub.name == CommandSpec.help.name then .error (explain spec rest)
            else do
              let inner ← read sub (path ++ " " ++ s) {} rest
              let l ← l.settle
              return (spec.name, l.given) :: inner

end ScopedSettings.CommandLine
