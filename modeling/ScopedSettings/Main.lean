/-
The command line. It reads the two files that the program can come to look at,
has the program run on them, and writes the record back if it has changed.
-/
import ScopedSettings.CommandLine.Execution
import ScopedSettings.Instant.Unix
import Std.Time.DateTime.Timestamp

namespace ScopedSettings.CommandLine

def variableNames : List String :=
  [Config.fileVariable, Config.timeoutVariable, Config.capacityVariable,
    Http.Address.hostVariable, Http.Address.portVariable]

def readVariables : IO Variables := do
  let values ← variableNames.mapM fun name => do
    return (← IO.getEnv name).map fun value => (name, value)
  return values.filterMap id

/-- The bytes of a file, `none` where there is no such file. -/
def readIfPresent (path : String) : IO (Option ByteArray) := do
  try
    return some (← IO.FS.readBinFile path)
  catch
    | .noFileOrDirectory _ _ _ => return none
    | e => throw e

def withFile (tree : Files.Tree) (path : String) : IO Files.Tree := do
  match ← readIfPresent path with
  | some bytes => return (tree.putFile path bytes).2
  | none => return tree

def replaceFile (path : String) (bytes : ByteArray) : IO Unit := do
  let sibling := Files.temporarySibling path
  IO.FS.createDirAll (Files.parent path)
  IO.FS.writeBinFile sibling bytes
  IO.FS.rename sibling path

def readClock : IO Instant := do
  let now ← Std.Time.Timestamp.now
  match Instant.ofUnix? now.val.second.val now.val.nano.val.toNat with
  | some t => return t
  | none => throw (IO.userError "the clock shows no date of the calendar")

/-- Runs the program on the files it names, and gives what it comes to. -/
def executeOnFiles (arguments : List String) : IO Outcome := do
  let vs ← readVariables
  let now ← readClock
  let tree ← withFile .workspace Config.envFile
  match recordFile? arguments vs tree with
  | none => return (execute arguments vs tree now).1
  | some path =>
    let before ← withFile tree path
    let (outcome, after) := execute arguments vs before now
    match outcome, after.readBytes path with
    | .printed _, .ok bytes =>
      let unchanged := match before.readBytes path with
        | .ok old => old == bytes
        | .error _ => false
      unless unchanged do replaceFile path bytes
    | _, _ => pure ()
    return outcome

end ScopedSettings.CommandLine

open ScopedSettings.CommandLine in
/-- Runs the program. It opens no sockets: the address to serve on is reported instead. -/
def main (arguments : List String) : IO UInt32 := do
  let outcome ← executeOnFiles arguments
  match outcome, outcome.departure? with
  | _, some d =>
    IO.print d.out
    if d.code == 2 then IO.eprintln d.err else IO.eprint d.err
    return UInt32.ofNat d.code
  | .serving a, none =>
    IO.eprintln ("no listener for " ++ a.text)
    return 1
  | _, none => return 1
