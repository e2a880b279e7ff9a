import Assay.Classification
import Assay.Command
import Assay.Counterexample
import Assay.Importance
import Assay.OutputDir
import Assay.Outcome
import Assay.Statistics

/-!
# Verifying one job

Prepare the place for results, run the tool, classify what it printed, show the important lines, and
collect statistics and counterexamples. The project's own harness is simpler: its exit code decides.
-/

namespace Assay

/-- A backend together with the configuration and the script it works with. -/
structure Checker where
  backend : Backend
  config : Config
  script : Option Path

namespace Checker

def backendName (k : Checker) : String :=
  k.backend.name

def command (k : Checker) (words : List String) : Command :=
  { Command.ofWords words with
    latin1 := k.backend.tool.latin1
    limit := k.config.jobTimeout
    script := k.script }

/-- Runs the command of a job. -/
def execute (k : Checker) (words : List String) : Action Capture :=
  match k.backend with
  | .canned c => Action.ofExcept ((c.run words).mapError .job)
  | _ => (k.command words).run

/-- The verdict on captured output, and what the run expected. The expectation is extracted first,
since rules depend on it. -/
def classify (k : Checker) (capture : Capture) (name : String) : Action (Verdict × Expectation) := do
  let tool := k.backend.tool
  let expect ← Marker.extract (capture.lines tool.markerStreams)
  let rules ← Action.ofExcept k.backend.rules
  let verdict ← Classification.classify rules expect name (capture.lines tool.verdictStreams)
  Action.logInfo .backend
    ("Status: '" ++ verdict.name ++ "' expected: '" ++ expect.getD "---" ++ "'")
  return (verdict, expect)

/-- A run that was killed has timed out, whatever it printed. -/
def judge (k : Checker) (capture : Capture) (name : String) : Action (Verdict × Expectation) :=
  if capture.timedOut then return (.timeout, none) else k.classify capture name

/-- What the tool reports about its run. -/
def statistics (k : Checker) (capture : Capture) : Action (List (String × Int)) :=
  match k.backend with
  | .klee =>
    Action.ofExcept ((Statistics.parse (capture.lines [.stderr])).mapError .number)
  | _ => return []

def pathsStatistic : String := "completed paths"

/-- A list of statistics as the log shows it. -/
def shownStatistics (stats : List (String × Int)) : String :=
  (Json.object (stats.map fun (k, n) => (k, .integer n))).shown

def logStatistics (name : String) (stats : List (String × Int)) : Action Unit :=
  if stats.isEmpty then return ()
  else do
    match stats.lookup pathsStatistic with
    | some n => Action.logInfo .backend ("     " ++ name ++ ": " ++ toString n ++ " paths")
    | none => pure ()
    Action.logInfo .backend ("     " ++ name ++ ": " ++ shownStatistics stats)

/-- What is logged when a tool starts on a job. -/
def announce (k : Checker) (job : Job) (output : Path) : Action Unit := do
  Action.logInfo .backend
    ("     Running " ++ k.backendName ++ " to verify " ++ job.displayName)
  Action.logInfo .backend ("      file: " ++ job.artifact.text)
  Action.logInfo .backend ("      entry: " ++ job.entrySymbol)
  Action.logInfo .backend ("      results: " ++ output.text)

/-- Everything after the process has ended. -/
def evaluate (k : Checker) (job : Job) (output : Path) (capture : Capture) : Action Outcome := do
  let name := job.displayName
  let (verdict, expect) ← k.judge capture name
  if verdict = .unknown then
    Action.log .warning .backend
      (name ++ ": unable to determine a verdict from " ++ k.backendName ++ " output")
  let ranks ← Action.ofExcept k.backend.ranks
  Importance.echo ranks ⟨expect, name⟩ rankApplication k.config.verbose
    (capture.lines k.backend.tool.echoStreams)
  let stats ← k.statistics capture
  logStatistics name stats
  let counterexamples ← Counterexample.collect k.backend k.config output
  return ⟨name, job.entrySymbol, verdict, expect, none, stats, 0,
    counterexamples.map Path.text⟩

/-- Verifies a job with a verification tool. -/
def verifyWithTool (k : Checker) (job : Job) : Action Outcome := do
  let output ← OutputDir.prepare k.backend k.config job
  k.announce job output
  let command ← Action.ofExcept ((k.backend.invocation k.config job output).mapError .job)
  let capture ← k.execute command
  k.evaluate job output capture

/-- Runs the harness. That it cannot be started is an outcome like any other. -/
def verifyWithHarness (k : Checker) (job : Job) : Action Outcome := do
  let command ← Action.ofExcept
    ((k.backend.invocation k.config job k.config.projectDir).mapError .job)
  let outcome (verdict : Verdict) (error : Option String) : Outcome :=
    ⟨job.displayName, job.entrySymbol, verdict, none, error, [], 0, []⟩
  match ← Action.attempt (k.execute command) with
  | .ok capture => return outcome (Harness.verdict capture job.displayName) none
  | .error (.job f) =>
    Action.log .warning .harness ("Proptest failed '" ++ f.message ++ "'")
    return outcome .error (some f.message)
  | .error f => Action.fail f

/-- Verifies one job. -/
def verify (k : Checker) (job : Job) : Action Outcome := do
  Action.start job
  match k.backend with
  | .harness => k.verifyWithHarness job
  | _ => k.verifyWithTool job

end Checker

end Assay
