/-
A store that answers by script, for trying what any backend could do: each
call takes the next line, and the last line is repeated.
-/
import ScopedSettings.Store.Backend

namespace ScopedSettings

/-- What a line of a script answers. -/
inductive ScriptedAnswer
  | fails (e : SettingsError)
  | gives (s : Settings)
  /-- The update applied to the given record; for a load, the record itself. -/
  | applies (base : Settings)

/-- A line of a script. -/
inductive ScriptLine
  | silence
  | speak (delay : Duration) (answer : ScriptedAnswer)

/-- A store that answers by script. -/
structure ScriptedStore where
  loadLines : List ScriptLine
  commitLines : List ScriptLine
  /-- How often the record has been asked for. -/
  loads : Nat := 0

namespace ScriptedStore

/-- The next line of a script and the lines after it; an empty script has no record. -/
def nextLine : List ScriptLine → ScriptLine × List ScriptLine
  | [] => (.speak ⟨0⟩ (.fails .recordNotFound), [])
  | [line] => (line, [line])
  | line :: rest => (line, rest)

/-- A line's answer, with what it applies an update by. -/
def ScriptLine.reply (apply : Settings → Settings) : ScriptLine → Reply
  | .silence => .never
  | .speak delay (.fails e) => .after delay (.error e)
  | .speak delay (.gives s) => .after delay (.ok s)
  | .speak delay (.applies base) => .after delay (.ok (apply base))

def load (b : ScriptedStore) : ScriptedStore × Reply :=
  let (line, rest) := nextLine b.loadLines
  ({ b with loadLines := rest, loads := b.loads + 1 }, ScriptLine.reply id line)

def commit (b : ScriptedStore) (u : Update) (now : Instant) : ScriptedStore × Reply :=
  let (line, rest) := nextLine b.commitLines
  ({ b with commitLines := rest }, ScriptLine.reply (u.apply · now) line)

instance : Backend ScriptedStore where
  name _ := "script"
  load := load
  commit := commit

end ScriptedStore
end ScopedSettings
