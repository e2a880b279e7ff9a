import Assay.Text.Quoted
import Assay.Text.Search

/-!
# Switches

The options of the command line, in the order in which they are declared, and the complaints about a
faulty command line.
-/

namespace Assay.CommandLine

inductive Switch where
  | help
  | manifestPath
  | jobManifest
  | backend
  | backendFlags
  | replaceBackendFlags
  | commonDir
  | features
  | tests
  | test
  | jobs
  | replay
  | verbose
  | quiet
  | script
  | report
  | jobTimeout
  deriving DecidableEq, Repr

namespace Switch

/-- How a switch can be written, the short form first. -/
def spellings : Switch → List String
  | .help => ["-h", "--help"]
  | .manifestPath => ["--manifest-path"]
  | .jobManifest => ["--job-manifest"]
  | .backend => ["-b", "--backend"]
  | .backendFlags => ["--backend-flags"]
  | .replaceBackendFlags => ["--replace-backend-flags"]
  | .commonDir => ["--seahorn-verify-c-common-dir"]
  | .features => ["--features"]
  | .tests => ["-t", "--tests"]
  | .test => ["--test"]
  | .jobs => ["-j", "--jobs"]
  | .replay => ["-r", "--replay"]
  | .verbose => ["-v", "--verbose"]
  | .quiet => ["-q", "--quiet"]
  | .script => ["--script"]
  | .report => ["--report"]
  | .jobTimeout => ["--job-timeout"]

/-- All switches, in order of declaration. -/
def all : List Switch :=
  [ .help, .manifestPath, .jobManifest, .backend, .backendFlags, .replaceBackendFlags, .commonDir,
    .features, .tests, .test, .jobs, .replay, .verbose, .quiet, .script, .report, .jobTimeout ]

def takesValue : Switch → Bool
  | .help | .replaceBackendFlags | .tests | .replay | .verbose | .quiet => false
  | _ => true

/-- The name of a switch in complaints. -/
def title (s : Switch) : String :=
  Text.joinWith "/" s.spellings

/-- Every spelling with its switch, in order of declaration. -/
def table : List (String × Switch) :=
  all.flatMap fun s => s.spellings.map fun spelling => (spelling, s)

def ofSpelling? (spelling : String) : Option Switch :=
  table.lookup spelling

theorem mem_all (s : Switch) : s ∈ all := by
  cases s <;> simp [all]

end Switch

/-- The backends that can be asked for. -/
def backendChoices : List String :=
  ["klee", "seahorn", "smack", "proptest"]

inductive Complaint where
  | ambiguous (word : String) (candidates : List String)
  | superfluousValue (s : Switch) (value : String)
  | missingValue (s : Switch)
  | notAnInteger (s : Switch) (value : String)
  | notANumber (s : Switch) (value : String)
  | notAChoice (s : Switch) (value : String)
  | unrecognized (words : List String)

def Complaint.message : Complaint → String
  | .ambiguous word candidates =>
    "ambiguous option: " ++ word ++ " could match " ++ Text.joinWith ", " candidates
  | .superfluousValue s value =>
    "argument " ++ s.title ++ ": ignored explicit argument " ++ Text.quoted value
  | .missingValue s => "argument " ++ s.title ++ ": expected one argument"
  | .notAnInteger s value =>
    "argument " ++ s.title ++ ": invalid int value: " ++ Text.quoted value
  | .notANumber s value =>
    "argument " ++ s.title ++ ": invalid float value: " ++ Text.quoted value
  | .notAChoice s value =>
    "argument " ++ s.title ++ ": invalid choice: " ++ Text.quoted value ++ " (choose from " ++
      Text.joinWith ", " (backendChoices.map Text.quoted) ++ ")"
  | .unrecognized words => "unrecognized arguments: " ++ Text.joinWith " " words

end Assay.CommandLine
