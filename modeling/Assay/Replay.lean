import Assay.Backend
import Assay.Command
import Assay.Outcome

/-!
# Replay

Running the program under test once more with a counterexample as its input, so that the values
which lead to a verdict can be seen. The program has to be built for that: only KLEE's test files
are inputs that it can read. Replay never changes a verdict, and one that fails is a warning.
-/

namespace Assay

/-- What a backend, a configuration and a script have to do with a replay. -/
structure Replayer where
  backend : Backend
  config : Config
  script : Option Path

/-- One replay: the input, the lines printed and the exit code. -/
structure Transcript where
  counterexample : Path
  lines : List String
  exitCode : Int
  deriving DecidableEq, Repr

namespace Replayer

/-- The variable through which the program finds its input, if it can read the backend's. -/
def inputName? : Backend → Option String
  | .klee => some "KTEST_FILE"
  | _ => none

/-- The flag that builds the program for replay. -/
def buildFlag : String := "--cfg=verify"

/-- The command that runs the program, or the job's test when tests are verified. -/
def command (r : Replayer) (job : Job) : List String :=
  let c := r.config
  let features := c.splitFeatures
  let common :=
    ["--manifest-path", c.manifestPath.text] ++
      if features.isEmpty then [] else ["--features", Text.joinWith "," features]
  if c.verifyingTests then
    ["cargo", "test"] ++ common ++ [job.displayName, "--", "--nocapture"]
  else
    ["cargo", "run"] ++ common ++ if c.args.isEmpty then [] else "--" :: c.args

/-- The variables of a replay. The build flag is added to those of the environment. -/
def environment (r : Replayer) (h : Host) (counterexample : Path) :
    Except ReplayFault (List (String × String)) :=
  match inputName? r.backend with
  | none => .error (.unsupported r.backend.name)
  | some name =>
    let flags :=
      match h.setting? "RUSTFLAGS" with
      | some inherited => inherited ++ " " ++ buildFlag
      | none => buildFlag
    .ok [("RUSTFLAGS", flags), (name, counterexample.text)]

/-- Starts the program; that it cannot be started is a fault of the replay. -/
def execute (r : Replayer) (words : List String) (environment : List (String × String)) :
    Action Capture := do
  let command := { Command.ofWords words with environment := environment, script := r.script }
  match ← Action.attempt command.run with
  | .ok capture => return capture
  | .error (.job f) => Action.fail (.replay (.notRun f))
  | .error f => Action.fail f

/-- Replays one counterexample. The program is expected to fail, so its exit code is no fault. -/
def replay (r : Replayer) (job : Job) (counterexample : Path) : Action Transcript := do
  if !(← Action.askDisk fun d => d.isFile? counterexample.text) then
    Action.fail (.replay (.noCounterexample counterexample.text))
  else
    let environment ← Action.ofExcept
      ((r.environment (← Action.host) counterexample).mapError .replay)
    let capture ← r.execute (r.command job) environment
    let lines := capture.lines [.stdout, .stderr]
    lines.forM Action.printLine
    return ⟨counterexample, lines, capture.exitCode⟩

/-- What is printed before a counterexample is replayed. -/
def heading (counterexample : String) : String :=
  "    Test input " ++ counterexample

/-- Replays one counterexample of a finished job. One that cannot be replayed is warned about. -/
def replayListed (r : Replayer) (job : Job) (counterexample : String) :
    Action (Option Transcript) := do
  Action.printLine (heading counterexample)
  match ← Action.attempt (r.replay job (Path.parse counterexample)) with
  | .ok t => return some t
  | .error (.replay f) =>
    Action.log .warning .replay ("Failed to replay: " ++ f.message)
    return none
  | .error f => Action.fail f

/-- Replays the counterexamples of a finished job, in order. -/
def replayOutcome (r : Replayer) (job : Job) (outcome : Outcome) : Action (List Transcript) := do
  let transcripts ← outcome.counterexamples.mapM (r.replayListed job)
  return transcripts.filterMap id

end Replayer

end Assay
