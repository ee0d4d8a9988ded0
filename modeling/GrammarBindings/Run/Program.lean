import GrammarBindings.Run.Generation

/-!
# The program

A program loads its settings, sets up its log and carries out one run. Its report has the texts of
the two output streams and the exit code, or the failure with which it breaks off.
-/

namespace GrammarBindings

structure Report where
  output : String
  errors : String
  exit : Except RunFailure Nat

namespace Report

/-- What a run shows, its log being written to a sink. -/
def ofOutcome (sink : Log.Sink) (o : Outcome) : Report :=
  let log := sink.writeAll o.log
  match o.result with
  | .ok () => ⟨o.printed, log, .ok 0⟩
  | .error e =>
    if e.isTold then ⟨o.printed, log ++ "bnfc: " ++ e.message ++ "\n", .ok 1⟩
    else ⟨o.printed, log, .error e⟩

end Report

namespace Log

/-- A log whose threshold has a name in any case; any other name stands for the level of notices. -/
def Sink.ofName (name : String) : Sink :=
  .framed ((Level.ofName? (Text.inCapitals name)).getD .info)

/-- The log of a program that was given a level, or else has one in its environment. -/
def setUp (level? : Option String) (env : Environment) : Sink :=
  Sink.ofName ((level?.or (env "BNFC_LOG_LEVEL")).getD "INFO")

end Log

def program (args : List String) (env : Environment) (now : CivilMinute) : Job Report := do
  match ← Settings.load env none with
  | .error e => return ⟨"", "", .error (.configuration e)⟩
  | .ok (settings, notes) =>
    let outcome ← run settings env now args
    let report := Report.ofOutcome (Log.setUp (some settings.logLevel) env) outcome
    return { report with errors := Log.Sink.bare.writeAll notes ++ report.errors }

end GrammarBindings
