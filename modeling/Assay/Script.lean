import Assay.Action
import Assay.Json.Literal
import Assay.Shell.Script

/-!
# The script of a run

A script file starts empty in every run, with its directory made for it, and grows by one record
for every command.

The commands of a run are made of Unicode texts, all of which have bytes. Whoever uses a script
directly may ask for more than that, `Request`: a text with half of a surrogate pair in it, which is
what becomes of a byte that is no part of a character in a file name or a variable, can be handed to
a process but not be written down.
-/

namespace Assay.Script

/-- Begins the script of a run. -/
def create (path : Path) : Action Unit := do
  Action.makeDirectories path.parent
  Action.refuseNull path.text
  Action.changeDisk fun d => d.write path.text []

/-- Adds one record. -/
def append (path : Path) (entry : Shell.Entry) (output : Option Capture) : Action Unit := do
  Action.refuseNull path.text
  Action.changeDisk fun d =>
    d.extend path.text (Text.encode (Shell.record entry output))

/-- Adds one record; a fault of the disk is logged and nothing more. -/
def note (path : Path) (entry : Shell.Entry) (output : Capture) : Action Unit := do
  match ← Action.attempt (append path entry (some output)) with
  | .ok () => return ()
  | .error (.disk f) => Action.log .error .process ("Cannot write to script: " ++ f.message)
  | .error f => Action.fail f

/-- What is known of a process, with texts as they may come. -/
structure Output where
  exitCode : Int
  stdout : Json.Literal
  stderr : Json.Literal
  timedOut : Bool
  deriving DecidableEq, Repr

def Output.ofCapture (c : Capture) : Output :=
  ⟨c.exitCode, c.stdout, c.stderr, c.timedOut⟩

def Output.capture? (o : Output) : Option Capture := do
  let stdout ← o.stdout.text?
  let stderr ← o.stderr.text?
  return ⟨o.exitCode, stdout, stderr, o.timedOut⟩

/-- A command to be written down, with texts as they may come. -/
structure Request where
  command : List Json.Literal
  environment : List (String × Json.Literal)
  directory : Option Json.Literal
  output : Option Output
  deriving DecidableEq, Repr

namespace Request

/-- A request in which all texts have bytes. -/
def ofRecord (r : Shell.Record) : Request :=
  ⟨r.entry.command.map .whole, r.entry.environment.map fun v => (v.1, .whole v.2),
    r.entry.directory.map .whole, r.output.map .ofCapture⟩

def entry? (r : Request) : Option Shell.Entry := do
  let command ← r.command.mapM Json.Literal.text?
  let environment ← r.environment.mapM fun v => v.2.text?.map fun s => (v.1, s)
  let directory ← r.directory.mapM Json.Literal.text?
  return ⟨command, environment, directory⟩

/-- Whether the exit code has more digits than a text can show. -/
def isUntellable (r : Request) : Bool :=
  r.output.any fun o => Nat.pow 10 Number.maxDigits ≤ o.exitCode.natAbs

/-- The record of a request. Its text is put together before it turns out whether it has bytes. -/
def record? (r : Request) : Except Fault Shell.Record :=
  if r.isUntellable then .error (.number .tooLarge)
  else
    match r.entry?, r.output.mapM Output.capture? with
    | some entry, some output => .ok ⟨entry, output⟩
    | _, _ => .error .unencodable

end Request

/-- Adds the record of a request. That it has no bytes shows when the file has been opened. -/
def file (path : Path) (r : Request) : Action Unit :=
  match r.record? with
  | .ok record => append path record.entry record.output
  | .error .unencodable => do
    Action.refuseNull path.text
    Action.changeDisk fun d => d.extend path.text []
    Action.fail .unencodable
  | .error f => Action.fail f

end Assay.Script
