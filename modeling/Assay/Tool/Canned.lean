import Assay.Tool.Klee
import Assay.Tool.Seahorn
import Assay.Tool.Smack

/-!
# Canned output

A tool for rehearsals: instead of starting a process it hands over output prepared for each entry
symbol, and reads it with the tables of a real tool, its dialect.
-/

namespace Assay

structure Canned where
  /-- What the run of an entry symbol prints, on both streams. -/
  outputs : List (String × String × String)
  /-- The entry symbols whose run fails. -/
  failures : List String
  dialect : String
  installed : Bool
  deriving DecidableEq, Repr

namespace Canned

def default : Canned := ⟨[], [], "klee", true⟩

/-- The tool whose tables are used. -/
def dialectTool? (c : Canned) : Option Tool :=
  if c.dialect = "klee" then some Klee.tool
  else if c.dialect = "seahorn" then some Seahorn.tool
  else if c.dialect = "smack" then some Smack.tool
  else none

def tool (c : Canned) : Tool where
  name := "Mock"
  executable := "true"
  outputRoot := "mockout"
  features := []
  markerStreams := [.stderr, .stdout]
  verdictStreams := [.stderr, .stdout]
  echoStreams := [.stderr]
  latin1 := false
  wantsOutputDir := true
  rules := (c.dialectTool?.map Tool.rules).getD []
  ranks := (c.dialectTool?.map Tool.ranks).getD []

def arguments (job : Job) (flags : List String) : List String :=
  job.entrySymbol :: flags

/-- The prepared run of a command; its first argument is the entry symbol. -/
def run (c : Canned) (command : List String) : Except JobFault Capture :=
  let entry := (command[1]?).getD ""
  if entry ∈ c.failures then .error (.scripted c.tool.executable entry)
  else
    let (out, err) := (c.outputs.lookup entry).getD ("", "")
    .ok ⟨0, out, err, false⟩

end Canned

end Assay
