/-!
# Log records

Levels are ranked; a record is written when its level reaches the threshold of the log. A log that
was never set up writes the bare messages of warnings and above, and one whose threshold is unset
uses the same rank.
-/

namespace GrammarBindings.Log

inductive Level where
  | unset | debug | info | warning | error | critical
  deriving DecidableEq, Repr

namespace Level

def rank : Level → Nat
  | unset => 0
  | debug => 10
  | info => 20
  | warning => 30
  | error => 40
  | critical => 50

def name : Level → String
  | unset => "NOTSET"
  | debug => "DEBUG"
  | info => "INFO"
  | warning => "WARNING"
  | error => "ERROR"
  | critical => "CRITICAL"

/-- Names in capitals, two of them with a second spelling. -/
def ofName? : String → Option Level
  | "NOTSET" => some unset
  | "DEBUG" => some debug
  | "INFO" => some info
  | "WARN" | "WARNING" => some warning
  | "ERROR" => some error
  | "CRITICAL" | "FATAL" => some critical
  | _ => none

@[simp] theorem ofName?_name (l : Level) : ofName? l.name = some l := by
  cases l <;> rfl

end Level

structure Entry where
  level : Level
  message : String
  deriving DecidableEq, Repr

def debug (message : String) : Entry := ⟨.debug, message⟩

def info (message : String) : Entry := ⟨.info, message⟩

def warning (message : String) : Entry := ⟨.warning, message⟩

/-- A log before or after it was set up with a threshold. -/
inductive Sink where
  | bare
  | framed (threshold : Level)
  deriving DecidableEq, Repr

namespace Sink

/-- The least rank that is written. An unset threshold defers to that of warnings. -/
def leastRank : Sink → Nat
  | bare | framed .unset => Level.warning.rank
  | framed threshold => threshold.rank

def writes (s : Sink) (l : Level) : Bool := s.leastRank ≤ l.rank

def line (s : Sink) (e : Entry) : String :=
  match s with
  | bare => e.message ++ "\n"
  | framed _ => "[" ++ e.level.name ++ "] " ++ e.message ++ "\n"

def write (s : Sink) (e : Entry) : String := if s.writes e.level then s.line e else ""

def writeAll (s : Sink) (es : List Entry) : String := String.join (es.map s.write)

end Sink

/-- The root of the names of all logs. -/
def rootName : String := "bnfc"

/-- Names outside the root are put below it. -/
def qualifiedName (name : String) : String :=
  if name = rootName || (rootName ++ ".").toList.isPrefixOf name.toList then name
  else rootName ++ "." ++ name

end GrammarBindings.Log
