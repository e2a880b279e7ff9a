import Assay.Given
import Assay.Host
import Assay.Number.Integer
import Assay.Text.Case
import Assay.Fault

/-!
# Configuration

The settings of a run. `Config.standard` holds the defaults, `Config.fromHost` takes what the
environment sets, and the command line overrides single fields afterwards.
-/

namespace Assay

open Number (Binary64)

/-- How much a run tells, from one character for a test to everything. -/
inductive Verbosity where
  | quiet
  | normal
  | informative
  | major
  | minor
  | trivial
  deriving DecidableEq, Repr

namespace Verbosity

def rank : Verbosity → Nat
  | .quiet => 0
  | .normal => 1
  | .informative => 2
  | .major => 3
  | .minor => 4
  | .trivial => 5

def name : Verbosity → String
  | .quiet => "QUIET"
  | .normal => "NORMAL"
  | .informative => "INFORMATIVE"
  | .major => "MAJOR"
  | .minor => "MINOR"
  | .trivial => "TRIVIAL"

/-- Quiet wins; otherwise each request for more output is one step, up to the last. -/
def ofFlags (quiet : Bool) (verbose : Int) : Verbosity :=
  if quiet then .quiet
  else if verbose ≤ 0 then .normal
  else if verbose = 1 then .informative
  else if verbose = 2 then .major
  else if verbose = 3 then .minor
  else .trivial

end Verbosity

structure Config where
  manifestPath : Path
  package : String
  /-- The backend asked for; none means to look for one. -/
  backend : Option String
  backendFlags : List String
  /-- Whether the backend's own flags are left out. -/
  replaceBackendFlags : Bool
  /-- Where SeaHorn's common files are. -/
  commonDir : Option String
  features : List String
  tests : Bool
  testFilters : List String
  /-- Arguments for the program under test. -/
  args : List String
  jobs : Int
  replay : Int
  verbose : Int
  quiet : Bool
  script : Option Path
  report : Option Path
  /-- Seconds after which a process is killed. -/
  jobTimeout : Option (Given Binary64)
  logLevel : String
  deriving DecidableEq, Repr

namespace Config

/-- The defaults on a host with this many processors. -/
def standard (processors : Int) : Config where
  manifestPath := Path.parse "Cargo.toml"
  package := ""
  backend := none
  backendFlags := []
  replaceBackendFlags := false
  commonDir := none
  features := []
  tests := false
  testFilters := []
  args := []
  jobs := processors
  replay := 0
  verbose := 0
  quiet := false
  script := none
  report := none
  jobTimeout := none
  logLevel := "WARNING"

def verbosity (c : Config) : Verbosity :=
  .ofFlags c.quiet c.verbose

def projectDir (c : Config) : Path :=
  c.manifestPath.parent

def verifyingTests (c : Config) : Bool :=
  c.tests || !c.testFilters.isEmpty

/-- The single features; blanks and commas separate them. -/
def splitFeatures (c : Config) : List String :=
  c.features.flatMap (Text.pieces fun ch => ch == ' ' || ch == ',')

/-- The number of a log level; unknown names count as warnings. -/
def levelNumber (name : String) : Int :=
  if name = "CRITICAL" || name = "FATAL" then 50
  else if name = "ERROR" then 40
  else if name = "INFO" then 20
  else if name = "DEBUG" then 10
  else if name = "NOTSET" then 0
  else 30

/-- The lowest level that is logged: each request for more output lowers it by one level. -/
def logThreshold (c : Config) : Int :=
  max 10 (levelNumber c.logLevel - 10 * c.verbose)

/-! ## Settings from the environment -/

def readInteger (s : String) : Except NumberFault Int :=
  match Number.readInteger s.toList with
  | .ok n => .ok n
  | .error .malformed => .error (.notAnInteger (Text.quoted s))
  | .error (.tooManyDigits count) => .error (.tooManyDigits count)

def readDecimal (s : String) : Except NumberFault Binary64 :=
  match Number.readBinary64 s.toList with
  | some x => .ok x
  | none => .error (.notADecimal s)

/-- The number that a variable holds; blanks alone are no setting. -/
def numberSetting {α : Type} (h : Host) (name : String) (read : String → Except NumberFault α) :
    Except NumberFault (Option α) :=
  let raw := Text.strip ((h.value? name).getD "")
  if raw.isEmpty then .ok none else (read raw).map some

/-- The defaults with what the environment sets. The time limit is read before the number of
jobs. -/
def fromHost (h : Host) : Except NumberFault Config := do
  let jobTimeout ← numberSetting h "CARGO_VERIFY_JOB_TIMEOUT" readDecimal
  let jobs ← numberSetting h "CARGO_VERIFY_JOBS" readInteger
  return { standard (jobs.getD h.processors) with
    backend := h.setting? "CARGO_VERIFY_BACKEND"
    commonDir := h.setting? "SEAHORN_VERIFY_C_COMMON_DIR"
    logLevel := Text.upper ((h.value? "CARGO_VERIFY_LOG_LEVEL").getD "WARNING")
    jobTimeout := jobTimeout.map .value }

end Config

end Assay
