import Assay.Capture
import Assay.Shell.Quote

/-!
# Scripts

Every command of a run can be written to a script that does the same again. One record is the
command, in a group with the change of directory and the variables if there are any, and then what
the command printed and its exit code as comments, one for every line. All texts of a record are
Unicode texts, so they can be written.
-/

namespace Assay.Shell

/-- A command as it is written to a script. -/
structure Entry where
  command : List String
  environment : List (String × String)
  directory : Option String
  deriving DecidableEq, Repr

namespace Entry

/-- Whether the command needs a group of its own. -/
def isGrouped (e : Entry) : Bool :=
  e.directory.isSome || !e.environment.isEmpty

def assignment (v : String × String) : String :=
  v.1 ++ "=" ++ word v.2

/-- The lines that run the command. -/
def commandLines (e : Entry) : List String :=
  if e.isGrouped then
    let body :=
      (e.directory.toList.map fun d => "cd " ++ word d) ++
        e.environment.map (fun v => "export " ++ assignment v) ++ [Shell.command e.command]
    ["("] ++ body.map ("    " ++ ·) ++ [")"]
  else [Shell.command e.command]

end Entry

/-- A command as it is noted in a script, with what is known of its process, if anything is. -/
structure Record where
  entry : Entry
  output : Option Capture
  deriving DecidableEq, Repr

/-- What a command printed, as comments. -/
def commentLines (c : Capture) : List String :=
  (c.lines [.stdout, .stderr]).map ("# " ++ ·) ++ ["# exit code: " ++ toString c.exitCode]

/-- One record of a script. -/
def record (e : Entry) (output : Option Capture) : String :=
  let lines := e.commandLines ++ (output.elim [] commentLines)
  Text.joinWith "\n" lines ++ "\n"

end Assay.Shell
