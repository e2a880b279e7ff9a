import Assay.Host
import Assay.Job

/-!
# The world of a run

What a run changes and what can be observed of it: the disk, the texts printed on both outputs, the
log, the calls made, with those that came to no process, and the jobs taken up, each in order.
-/

namespace Assay

inductive Level where
  | info
  | warning
  | error
  deriving DecidableEq, Repr

def Level.name : Level → String
  | .info => "INFO"
  | .warning => "WARNING"
  | .error => "ERROR"

def Level.rank : Level → Nat
  | .info => 20
  | .warning => 30
  | .error => 40

/-- Which part of the program a log record comes from. -/
inductive Source where
  | expectation
  | classifier
  | process
  | backend
  | klee
  | harness
  | replay
  | scheduler
  | report
  | commandLine
  deriving DecidableEq, Repr

def Source.name : Source → String
  | .expectation => "cargo_verify.expectation"
  | .classifier => "cargo_verify.classifier"
  | .process => "cargo_verify.run_tools"
  | .backend => "cargo_verify.backend"
  | .klee => "cargo_verify.backends.klee"
  | .harness => "cargo_verify.backends.direct"
  | .replay => "cargo_verify.replay"
  | .scheduler => "cargo_verify.scheduler"
  | .report => "cargo_verify.models"
  | .commandLine => "cargo_verify.cli"

structure LogRecord where
  level : Level
  source : Source
  message : String
  deriving DecidableEq, Repr

structure World where
  disk : Disk
  output : List String
  complaints : List String
  log : List LogRecord
  calls : List Call
  started : List Job

/-- A world in which nothing has happened yet. -/
def World.begin (disk : Disk) : World :=
  ⟨disk, [], [], [], [], []⟩

end Assay
