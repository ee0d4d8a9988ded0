import GrammarBindings.Calendar
import GrammarBindings.Log
import GrammarBindings.Text.Capital
import GrammarBindings.Text.Numeral

/-!
# Settings

Where a run writes to, how much it logs, and which time it stamps into what it writes. Each layer of
configuration may override some of the settings; a value that does not fit leaves the setting as it
was, whatever becomes of the others.

The time is the one that was set, else that of the epoch variable, else the present.
-/

namespace GrammarBindings

open Text

structure Settings where
  outDirectory : String := "."
  logLevel : String := "INFO"
  timestamp? : Option String := none
  deriving DecidableEq, Repr

/-- What one layer of configuration says. -/
structure Overrides where
  outDirectory? : Option String := none
  logLevel? : Option String := none
  timestamp? : Option String := none
  deriving DecidableEq, Repr

/-- The values of environment variables. -/
abbrev Environment := String → Option String

def nonempty? (s : String) : Option String := if s.isEmpty then none else some s

namespace Settings

def levels : List String := ["DEBUG", "INFO", "WARNING", "ERROR", "CRITICAL"]

/-- A level by its name in any case, blanks around it being ignored. -/
def level? (s : String) : Option String :=
  let name := inCapitals (String.ofList (trimBlanks s.toList))
  if name ∈ levels then some name else none

def unknownLevelNote (s : String) : Log.Entry :=
  Log.debug ("ignoring unknown log level " ++ quote s)

/-- Each setting that the layer gives a fitting value. -/
def override (s : Settings) (o : Overrides) : Settings where
  outDirectory := (o.outDirectory?.bind nonempty?).getD s.outDirectory
  logLevel := (o.logLevel?.bind level?).getD s.logLevel
  timestamp? := (o.timestamp?.bind nonempty?).or s.timestamp?

/-- The note on a level that is none. -/
def notes (o : Overrides) : List Log.Entry :=
  match o.logLevel? with
  | none => []
  | some l => if (level? l).isNone then [unknownLevelNote l] else []

end Settings

namespace Overrides

/-- The variables of a layer have names with a common beginning; an empty one counts as unset. -/
def ofEnvironment (env : Environment) (beginning : String) : Overrides where
  outDirectory? := (env (beginning ++ "OUT_DIR")).bind nonempty?
  logLevel? := (env (beginning ++ "LOG_LEVEL")).bind nonempty?
  timestamp? := (env (beginning ++ "TIMESTAMP")).bind nonempty?

def ownBeginning : String := "BNFC_"

end Overrides

/-- The time to be stamped, with a warning if the epoch variable holds no time. -/
def stamp (s : Settings) (env : Environment) (now : CivilMinute) : String × List Log.Entry :=
  match s.timestamp?.bind nonempty?, (env "SOURCE_DATE_EPOCH").bind nonempty? with
  | some time, _ => (time, [])
  | none, none => (now.written, [])
  | none, some epoch =>
    match (readSigned? epoch).bind Calendar.ofEpoch? with
    | some minute => (minute.written, [])
    | none =>
      (now.written, [Log.warning ("ignoring malformed SOURCE_DATE_EPOCH=" ++ quote epoch)])

end GrammarBindings
