import Assay.CommandLine.Arguments
import Assay.Replay
import Assay.Verification

/-!
# Gaps

A command line may give a setting nothing. Three such gaps change how a run goes on: without the
project's manifest there is no directory for a job's results, without features there are no
arguments for the harness and for a replay, and without a number of workers no job is taken up.
`verify_none` and `replay_none` say that nothing changes where there is no gap.
-/

namespace Assay

/-- The settings that a run may find empty. -/
structure Gaps where
  manifestPath : Bool
  features : Bool
  workers : Bool
  deriving DecidableEq, Repr

namespace Gaps

def none : Gaps := ⟨false, false, false⟩

def ofArguments (a : CommandLine.Arguments) : Gaps where
  manifestPath := a.manifestPath.isNothing
  features := a.features.any Given.isNothing
  workers := (a.jobs.getD (.value 0)).isNothing

/-- Fails where the number of workers is needed. -/
def needWorkers (g : Gaps) : Except Fault Unit :=
  if g.workers then .error (.gap .workers) else .ok ()

/-- Fails where the directory of the project is needed. -/
def needDirectory (g : Gaps) : Except Fault Unit :=
  if g.manifestPath then .error (.gap .directory) else .ok ()

/-- The job that stands for the whole run of the harness. A package names it without a look at the
project's directory. -/
def suiteJob (g : Gaps) (c : Config) (artifact : Path) : Except Fault Job := do
  if c.package.isEmpty then g.needDirectory
  return Harness.suiteJob c artifact

/-- Whether the command of a checker's jobs lists features. -/
def listsFeatures (k : Checker) : Bool :=
  k.backend.isHarness && !k.config.replaceBackendFlags

/-- Verifies one job, up to the first gap that is met. -/
def verify (g : Gaps) (k : Checker) (job : Job) : Action Outcome :=
  if g.manifestPath then do
    Action.start job
    Action.fail (.gap .directory)
  else if g.features && listsFeatures k then do
    Action.start job
    let _ ← Action.ofExcept ((Backend.userFlags k.config job k.config.projectDir).mapError .job)
    Action.fail (.gap .features)
  else k.verify job

/-- Replays one counterexample of a finished job. The features are missed once it is clear that the
program can be run with it. -/
def replayListed (g : Gaps) (r : Replayer) (job : Job) (counterexample : String) : Action Unit := do
  let found := ((← Action.disk).isFile? (Path.parse counterexample).text).toOption = some true
  if g.features && (Replayer.inputName? r.backend).isSome && found then
    Action.printLine (Replayer.heading counterexample)
    Action.fail (.gap .features)
  else
    let _ ← r.replayListed job counterexample
    return ()

/-- Replays the counterexamples of a finished job, in order. -/
def replay (g : Gaps) (r : Replayer) (job : Job) (o : Outcome) : Action Unit :=
  if g.features then o.counterexamples.forM (g.replayListed r job)
  else do
    let _ ← r.replayOutcome job o
    return ()

@[simp] theorem needWorkers_none : none.needWorkers = .ok () := rfl

@[simp] theorem needDirectory_none : none.needDirectory = .ok () := rfl

@[simp] theorem suiteJob_none (c : Config) (artifact : Path) :
    none.suiteJob c artifact = .ok (Harness.suiteJob c artifact) := by
  unfold suiteJob
  split <;> rfl

@[simp] theorem verify_none (k : Checker) (job : Job) : none.verify k job = k.verify job := rfl

theorem replay_none (r : Replayer) (job : Job) (o : Outcome) :
    none.replay r job o = (do let _ ← r.replayOutcome job o; return ()) := rfl

end Gaps

end Assay
