import Assay.Verification

/-!
# Schedules

A suite is run by verifying its jobs one by one; the outcomes stand in the order of the jobs,
whichever worker took them. Several workers need a pool, which is made once and of fixed size. A job
whose verification fails has an outcome all the same: the verdict is unknown and the fault is its
error.
-/

namespace Assay

/-- The workers of a scheduler. A pool that was shut down stays, but takes no more jobs. -/
inductive Pool where
  | absent
  | ready (workers : Int)
  | closed (workers : Int)
  deriving DecidableEq, Repr

namespace Pool

/-- Makes the pool. There can be only one, and it needs a worker. -/
def configure (p : Pool) (workers : Int) : Except Fault Pool :=
  match p with
  | .absent => if workers < 1 then .error (.poolTooSmall workers) else .ok (.ready workers)
  | _ => .error .poolExists

def shutDown : Pool → Pool
  | .ready workers => .closed workers
  | p => p

/-- The pool that takes jobs, made now if there is none yet. -/
def accept (p : Pool) (workers : Int) : Except Fault Pool :=
  match p with
  | .absent => p.configure workers
  | .ready n => .ok (.ready n)
  | .closed _ => .error .poolClosed

end Pool

/-- How a job is verified and by which backend, and the configuration that says what is
reported. -/
structure Scheduler where
  backendName : String
  verify : Job → Action Outcome
  config : Config

namespace Scheduler

/-- The scheduler of a checker's jobs. -/
def ofChecker (k : Checker) (c : Config) : Scheduler :=
  ⟨k.backendName, k.verify, c⟩

/-- The line of a finished job, or its mark if the output is quiet. -/
def progress (s : Scheduler) (o : Outcome) : String :=
  if s.config.quiet then String.singleton o.verdict.mark
  else "test " ++ o.displayName ++ " ... " ++ o.verdict.label ++ "\n"

/-- What the log says about a job that failed. -/
def logFault (s : Scheduler) (job : Job) : Fault → Action Unit
  | .job f => do
    Action.log .error .scheduler f.message
    Action.log .error .scheduler ("Failed to run test '" ++ job.displayName ++ "'.")
  | _ =>
    Action.log .error .scheduler
      ("Backend " ++ s.backendName ++ " crashed on '" ++ job.displayName ++ "'")

/-- The error text of a job that failed. A fault that no job should have comes with its kind. -/
def errorText : Fault → String
  | .job f => f.message
  | f => f.kindName ++ ": " ++ f.message

/-- The outcome of a job, whatever happens to it. -/
def settle (s : Scheduler) (job : Job) : Action Outcome := do
  match ← Action.attempt (s.verify job) with
  | .ok outcome => return outcome
  | .error f =>
    s.logFault job f
    return .failed job (errorText f)

/-- Verifies a job and reports its outcome. -/
def runOne (s : Scheduler) (job : Job) : Action Outcome := do
  let outcome ← s.settle job
  Action.print (s.progress outcome)
  return outcome

/-- Whether jobs are taken one after the other, without a pool. -/
def isSequential (workers : Int) (jobs : List Job) : Bool :=
  workers ≤ 1 || jobs.length ≤ 1

/-- The pool after a run has been accepted. -/
def poolFor (p : Pool) (workers : Int) (jobs : List Job) : Except Fault Pool :=
  if isSequential workers jobs then .ok p else p.accept workers

/-- Tells how many jobs there are. -/
def announce (count : Nat) : Action Unit :=
  Action.printLine ("Running " ++ toString count ++ " test(s)")

/-- Verifies every job with this number of workers. -/
def run (s : Scheduler) (p : Pool) (jobs : List Job) (workers : Int) : Action (Suite × Pool) := do
  announce jobs.length
  let p ← Action.ofExcept (poolFor p workers jobs)
  let outcomes ← jobs.mapM s.runOne
  return (Suite.ofOutcomes s.backendName outcomes, p)

end Scheduler

end Assay
