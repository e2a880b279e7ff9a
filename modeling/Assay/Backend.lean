import Assay.Flag
import Assay.Tool.Canned
import Assay.Tool.Harness

/-!
# Backends

The tools that a run can choose from, by name, and what differs between them: which option
combinations they accept, and the command that checks a job.
-/

namespace Assay

inductive Backend where
  | klee
  | seahorn
  | smack
  | harness
  | canned (c : Canned)
  deriving DecidableEq, Repr

namespace Backend

def tool : Backend → Tool
  | .klee => Klee.tool
  | .seahorn => Seahorn.tool
  | .smack => Smack.tool
  | .harness => Harness.tool
  | .canned c => c.tool

def name (b : Backend) : String :=
  b.tool.name

/-- The backend of a name, in whatever case it is written. -/
def ofName? (name : String) : Option Backend :=
  let name := Text.lower name
  if name = "klee" then some .klee
  else if name = "seahorn" then some .seahorn
  else if name = "smack" then some .smack
  else if name = "proptest" || name = "direct" then some .harness
  else if name = "mock" then some (.canned .default)
  else none

def isInstalled (b : Backend) (h : Host) : Bool :=
  match b with
  | .harness => true
  | .canned c => c.installed
  | b => h.installed b.tool.executable

def isHarness : Backend → Bool
  | .harness => true
  | _ => false

/-- Refuses combinations of options that the backend cannot honour. -/
def validate (b : Backend) (c : Config) : Except SetupFault Unit :=
  match b with
  | .seahorn => Seahorn.validate c
  | .harness => Harness.validate c
  | _ => .ok ()

/-- The table of verdicts. Canned output has none if no tool speaks its dialect. -/
def rules (b : Backend) : Except Fault (List Rule) :=
  match b with
  | .canned c => if c.dialectTool?.isSome then .ok b.tool.rules else .error (.unknownDialect c.dialect)
  | b => .ok b.tool.rules

def ranks (b : Backend) : Except Fault (List RankRule) :=
  match b with
  | .canned c => if c.dialectTool?.isSome then .ok b.tool.ranks else .error (.unknownDialect c.dialect)
  | b => .ok b.tool.ranks

/-- Where a job's results go. -/
def outputDir (b : Backend) (c : Config) (job : Job) : Path :=
  c.projectDir ++ Path.parse b.tool.outputRoot ++ Path.parse job.displayName

/-- The user's flags for a job. -/
def userFlags (c : Config) (job : Job) (output : Path) : Except JobFault (List String) :=
  c.backendFlags.mapM (Flag.format ⟨job.entrySymbol, job.artifact.text, output.text⟩)

/-- The arguments of the backend's own, with the user's flags among them. -/
def arguments (b : Backend) (c : Config) (job : Job) (output : Path) (flags : List String) :
    List String :=
  match b with
  | .klee => Klee.arguments c job output flags
  | .seahorn => Seahorn.arguments (c.commonDir.getD "") job output flags
  | .smack => Smack.arguments job flags
  | .harness => Harness.arguments c flags
  | .canned _ => Canned.arguments job flags

/-- SeaHorn cannot do without its common files, whoever writes the flags. -/
def requirements (b : Backend) (c : Config) : Except JobFault Unit :=
  match b with
  | .seahorn => if (Seahorn.commonDir? c).isSome then .ok () else .error .commonDirMissing
  | _ => .ok ()

/-- The command that checks a job. -/
def invocation (b : Backend) (c : Config) (job : Job) (output : Path) :
    Except JobFault (List String) := do
  b.requirements c
  let flags ← userFlags c job output
  let arguments := if c.replaceBackendFlags then flags else b.arguments c job output flags
  return b.tool.executable :: arguments

end Backend

end Assay
