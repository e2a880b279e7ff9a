import Assay.Session

/-!
# The command line program

The outer layer of the library. A run works on a disk of its own; this program lends it the files
that the arguments name, and afterwards prints what the run printed and brings back its script and
its report. It starts no process: a run learns that every tool is refused, and ends accordingly.
-/

namespace Assay.Program

/-- The variables that a run looks at. -/
def settings : List String :=
  ["CARGO_VERIFY_BACKEND", "CARGO_VERIFY_JOBS", "CARGO_VERIFY_JOB_TIMEOUT",
    "CARGO_VERIFY_LOG_LEVEL", "SEAHORN_VERIFY_C_COMMON_DIR", "RUSTFLAGS"]

def readSettings : IO (List (String × String)) := do
  let found ← settings.mapM fun name => do
    return (← IO.getEnv name).map fun value => (name, value)
  return found.filterMap id

def isThere (path : String) : IO Bool := do
  try
    let _ ← IO.FS.Handle.mk path .read
    return true
  catch _ => return false

/-- The verifiers that are found on the search path. -/
def readInstalled : IO (List String) := do
  let directories := ((← IO.getEnv "PATH").getD "").splitOn ":"
  let programs := Selection.preference.map fun b => b.tool.executable
  programs.filterM fun program => directories.anyM fun d => isThere (d ++ "/" ++ program)

/-- A disk with one more file, if the path leads to one. -/
def lend (d : Disk) (path : Path) : IO Disk := do
  try
    let content ← IO.FS.readBinFile path.text
    let (d, _) := d.makeDirectories path.parent
    match d.write path.text content.toList with
    | .ok d => return d
    | .error _ => return d
  catch _ => return d

/-- Brings a file back from the disk of a run. -/
def bringBack (d : Disk) (path : Path) : IO Unit :=
  match d.read path.text with
  | .ok content => do
    IO.FS.createDirAll path.parent.text
    IO.FS.writeBinFile path.text (ByteArray.mk content.toArray)
  | .error _ => return ()

/-- The files that arguments name: those that a run reads, and those that it writes. -/
def named (a : CommandLine.Arguments) : List Path × List Path :=
  let paths (given : Option (Given Path)) : List Path := (given.bind Given.value?).toList
  (paths a.jobManifest ++ paths a.report, paths a.script ++ paths a.report)

def refused : OsFault :=
  ⟨Errno.notPermitted.code, Errno.notPermitted.text, none⟩

def hostOf (environment : List (String × String)) (installed : List String) : Host where
  environment := environment
  installed := fun program => installed.contains program
  processors := 1
  pinned := fun _ => false
  behave := fun _ _ disk => (disk, .refused refused)

/-- The exit code of a run that ended with a fault, which is told unless it was told already. -/
def exitCodeOf : Fault → IO UInt32
  | .usage status complaint => do
    IO.eprintln complaint
    return status.toUInt32
  | f => do
    IO.eprintln (f.kindName ++ ": " ++ f.message)
    return 1

def run (argv : List String) : IO UInt32 := do
  let (toRead, toWrite) :=
    match CommandLine.parse (Session.withoutSubcommand argv) with
    | .ok a => named a
    | .error _ => ([], [])
  let disk ← toRead.foldlM lend ⟨[], []⟩
  let host := hostOf (← readSettings) (← readInstalled)
  let (result, world) := (Session.main argv).run host (World.begin disk)
  world.output.forM IO.print
  toWrite.forM (bringBack world.disk)
  match result with
  | .ok code =>
    world.complaints.forM IO.eprint
    return code.toUInt32
  | .error f => exitCodeOf f

end Assay.Program

def main (argv : List String) : IO UInt32 :=
  Assay.Program.run argv
