import Assay.CommandLine.Arguments
import Assay.Manifest
import Assay.Report
import Assay.Run.Records

/-!
# Sessions

One call of the program: read the command line on top of the environment's settings, load the jobs,
run them, and append the result to a report if there is one. The exit code is zero only if every
outcome is verified; whatever keeps the run from starting is told on the error output.
-/

namespace Assay.Session

open CommandLine

/-- The word that a calling tool may put in front of the arguments. -/
def subcommand : String := "verify"

def withoutSubcommand : List String → List String
  | [] => []
  | word :: rest => if word = subcommand then rest else word :: rest

/-- The arguments of a command line. What is wrong with them is told on the error output. -/
def arguments (argv : List String) : Action Arguments :=
  match parse argv with
  | .ok a => return a
  | .error refusal => do
    match refusal.toFault with
    | .usage status complaint =>
      Action.complain complaint
      Action.fail (.usage status complaint)
    | f => Action.fail f

/-- The configuration that arguments ask for on this host. -/
def configuration (a : Arguments) : Action Config := do
  let h ← Action.host
  let standard ← Action.ofExcept ((Config.fromHost h).mapError .number)
  let flags ← Action.ofExcept (a.flags.mapError .gap)
  return a.configure standard flags

/-- The path that was given; nothing is no path. -/
def pathGiven (g : Given Path) : Except Fault Path :=
  match g with
  | .value path => .ok path
  | .nothing => .error (.record (.notAPath "list"))

/-- The jobs of the arguments' manifest; there are none without one. -/
def manifest (a : Arguments) : Action Manifest :=
  match a.jobManifest with
  | some given => do Manifest.load (← Action.ofExcept (pathGiven given)) a.testFilters
  | none => return ⟨none, [], none⟩

/-- Adds the suite to the arguments' report, if they name one. -/
def report (a : Arguments) (suite : Suite) : Action Unit :=
  match a.report with
  | some given => do Report.append (← Action.ofExcept (pathGiven given)) suite
  | none => return ()

/-- The run that a configuration and a manifest describe. -/
def runOf (c : Config) (m : Manifest) : Run where
  choice := c.backend
  flags := c.backendFlags
  workers := some c.jobs
  requested := m.requested
  config := c
  script := c.script
  prepared := none

/-- Runs what the command line asks for. -/
def run (argv : List String) : Action Suite := do
  let a ← arguments (withoutSubcommand argv)
  let c ← configuration a
  let m ← manifest a
  let c := { c with package := m.package.getD c.package }
  match c.script with
  | some path => Script.create path
  | none => pure ()
  let suite ← (runOf c m).suiteOfRecords (.ofArguments a) m.jobs
  Run.printElapsed c "Total"
  report a suite
  return suite

/-- Tells why the run could not start. -/
def reportSetup (f : SetupFault) : Action Unit := do
  Action.log .error .commandLine f.message
  Action.complain ("error: " ++ f.message ++ "\n")

/-- The whole program. It gives the exit code. -/
def main (argv : List String) : Action Nat := do
  match ← Action.attempt (run argv) with
  | .ok suite =>
    Action.printLine ("VERIFICATION_RESULT: " ++ suite.verdict.name)
    return suite.exitCode
  | .error (.setup f) =>
    reportSetup f
    return 1
  | .error f => Action.fail f

end Assay.Session
