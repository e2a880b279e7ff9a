import Assay.Gaps
import Assay.Schedule
import Assay.Selection

/-!
# Runs

A run checks that the expected number of jobs is there, settles on a backend, verifies every job and
replays counterexamples if asked to. Whatever keeps a run from starting is found before the first
job is taken up; after that every job has an outcome.

`suiteWith` runs with settings that may have been given nothing, and `suite` is a run without such
gaps.
-/

namespace Assay

/-- What a run is asked to do, besides its jobs. -/
structure Run where
  /-- The name of the backend; none means to look for one. -/
  choice : Option String
  /-- Flags that replace the configured ones, unless there are none. -/
  flags : List String
  /-- The number of workers, if it is not the configured one. -/
  workers : Option Int
  /-- How many jobs there should be. -/
  requested : Option Int
  config : Config
  script : Option Path
  /-- A backend made beforehand, with a configuration of its own. -/
  prepared : Option Checker

namespace Run

/-- The configuration that the run works with. -/
def effective (r : Run) : Config :=
  { r.config with
    backendFlags := if r.flags.isEmpty then r.config.backendFlags else r.flags
    jobs := r.workers.getD r.config.jobs }

/-- Refuses to start with more or fewer jobs than there should be. A difference of too many digits
cannot even be told. -/
def checkCount (r : Run) (count : Nat) : Except Fault Unit :=
  match r.requested with
  | some n =>
    if n = count then .ok ()
    else if Nat.pow 10 Number.maxDigits ≤ (n - count).natAbs then .error (.number .tooLarge)
    else .error (.setup (.missingTests (n - count)))
  | none => .ok ()

/-- The backend of the run. One made beforehand keeps the configuration it was made with. -/
def checker (r : Run) : Action Checker := do
  let c := r.effective
  match r.prepared with
  | some k =>
    Action.ofExcept ((k.backend.validate c).mapError .setup)
    return k
  | none =>
    let b ← Selection.select r.choice c
    return ⟨b, c, r.script⟩

/-- All that has to be in order before a run of this many jobs starts. -/
def prepare (r : Run) (count : Nat) : Action Checker := do
  Action.ofExcept (r.checkCount count)
  r.checker

/-- The jobs to verify. The harness checks the whole suite in one job, which takes the binary of the
first; for any other backend there has to be a job. -/
def plan (g : Gaps) (k : Checker) (jobs : List Job) : Except Fault (List Job) :=
  if k.backend.isHarness then
    let artifact := (jobs.head?.map Job.artifact).getD (Path.parse "")
    (g.suiteJob k.config artifact).map fun job => [job]
  else if jobs.isEmpty then .error (.setup .noTests)
  else .ok jobs

/-- The time that a phase has taken. The world of a run has no clock, so none passes. -/
def elapsed : String := "0.000s"

/-- Tells how long a phase took, if the output is to be informative. -/
def printElapsed (c : Config) (phase : String) : Action Unit :=
  if Verbosity.informative.rank ≤ c.verbosity.rank then
    Action.printLine (phase ++ " " ++ elapsed)
  else return ()

/-- The job that an outcome is replayed as: the last one of its name. -/
def jobNamed? (jobs : List Job) (name : String) : Option Job :=
  jobs.reverse.find? fun job => job.displayName = name

/-- Replays the counterexamples of all outcomes. -/
def replayAll (g : Gaps) (r : Replayer) (jobs : List Job) (outcomes : List Outcome) :
    Action Unit :=
  outcomes.forM fun o =>
    match jobNamed? jobs o.displayName with
    | some job => g.replay r job o
    | none => return ()

/-- Names the jobs in the log. -/
def announce (jobs : List Job) : Action Unit :=
  Action.logInfo .scheduler ("Checking " ++ Text.joinWith ", " (jobs.map Job.displayName))

/-- Takes up the jobs, for which the number of workers is needed. -/
def schedule (r : Run) (g : Gaps) (k : Checker) (jobs : List Job) : Action Suite :=
  match g.needWorkers with
  | .error f => do
    Scheduler.announce jobs.length
    Action.fail f
  | .ok () => do
    let s : Scheduler := ⟨k.backendName, g.verify k, r.effective⟩
    return (← s.run .absent jobs r.effective.jobs).1

/-- Verifies the planned jobs and sums up. -/
def verify (r : Run) (g : Gaps) (k : Checker) (jobs : List Job) : Action Suite := do
  announce jobs
  let suite ← r.schedule g k jobs
  Action.printLine ""
  Action.printLine suite.summary
  printElapsed r.effective "Verify"
  return suite

/-- Verifies the planned jobs and replays what they found. -/
def carryOut (r : Run) (g : Gaps) (k : Checker) (jobs : List Job) : Action Suite := do
  let suite ← r.verify g k jobs
  if 0 < r.effective.replay then
    replayAll g ⟨k.backend, r.effective, r.script⟩ jobs suite.outcomes
  return suite

/-- Runs jobs from beginning to end, with gaps among the settings. -/
def suiteWith (r : Run) (g : Gaps) (jobs : List Job) : Action Suite := do
  let k ← r.prepare jobs.length
  let jobs ← Action.ofExcept (plan g k jobs)
  r.carryOut g k jobs

/-- Runs jobs from beginning to end. -/
def suite (r : Run) (jobs : List Job) : Action Suite :=
  r.suiteWith .none jobs

end Run

end Assay
