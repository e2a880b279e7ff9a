import Assay.Given
import Assay.Script

/-!
# Commands

Running a command as a process and capturing what it prints. A process that the system refuses to
start is a fault of the job; one that ends badly is a fault only if the caller asks for it. A process
that takes longer than its limit is killed, and what it had printed by then is kept. A call that is
not carried out is a fault of its own, which nobody turns into one of the job.
-/

namespace Assay

/-- A command to run, and how. -/
structure Command where
  words : List String
  /-- Variables besides the inherited ones. -/
  environment : List (String × String)
  directory : Option String
  latin1 : Bool
  /-- Whether an unsuccessful exit is a fault. -/
  mustSucceed : Bool
  limit : Option (Given Number.Binary64)
  script : Option Path

namespace Command

def ofWords (words : List String) : Command :=
  ⟨words, [], none, false, false, none, none⟩

def entry (c : Command) : Shell.Entry :=
  ⟨c.words, c.environment, c.directory⟩

/-- The seconds of the limit, if there is one. -/
def seconds? (c : Command) : Option Number.Binary64 :=
  c.limit.bind Given.value?

/-- Fails if a limit was given that is nothing. -/
def needLimit (c : Command) : Except Fault Unit :=
  if c.limit = some .nothing then .error (.gap .limit) else .ok ()

def call (c : Command) : Call :=
  ⟨c.words, c.directory, c.environment, c.seconds?⟩

def decode (c : Command) (bytes : Text.Bytes) : String :=
  if c.latin1 then Text.decodeLatin1 bytes else Text.decodeLossy bytes

/-- What is captured of an ending; a killed process has the exit code -1. -/
def capture (c : Command) (code : Int) (stdout stderr : Text.Bytes) (overruns : Bool) : Capture :=
  let killed := overruns && c.seconds?.isSome
  ⟨if killed then -1 else code, c.decode stdout, c.decode stderr, killed⟩

/-- Lets the host run the process. -/
def spawn (c : Command) : Action Ending := do
  let h ← Action.host
  let w ← Action.world
  let (disk, ending) := h.behave w.calls c.call w.disk
  Action.modify fun w => { w with disk := disk, calls := w.calls ++ [c.call] }
  return ending

/-- What is logged before a process is started. -/
def announce (c : Command) (program : String) : Action Unit := do
  let place := (c.directory.filter fun d => !d.isEmpty).getD "."
  Action.logInfo .process
    ("Running '" ++ program ++ "' in '" ++ place ++ "' with command:\n" ++
      Shell.command c.words)
  if c.environment.isEmpty then return ()
  else
    Action.logInfo .process
      ("with environment variables:\n" ++
        Text.joinWith "\n" (c.environment.map Shell.Entry.assignment))

/-- What follows from how the process ended. -/
def conclude (c : Command) (program : String) (output : Capture) : Action Unit :=
  if output.timedOut then
    let seconds := (c.seconds?.map Number.Binary64.oneDecimal).getD ""
    Action.log .warning .process ("'" ++ program ++ "' killed after " ++ seconds ++ "s")
  else if c.mustSucceed && output.exitCode ≠ 0 then
    if output.exitCode < 0 then Action.fail (.job (.signalled program))
    else Action.fail (.job (.exited program output.exitCode))
  else return ()

/-- Writes down the command and its output, if there is a script. -/
def note (c : Command) (output : Capture) : Action Unit :=
  match c.script with
  | some path => Script.note path c.entry output
  | none => return ()

/-- Runs the command as a process and captures its output. -/
def run (c : Command) : Action Capture := do
  match c.words with
  | [] => Action.fail .emptyCommand
  | program :: _ =>
    c.announce program
    Action.ofExcept c.needLimit
    match ← c.spawn with
    | .refused f => Action.fail (.job (.cannotSpawn program f))
    | .abandoned f => Action.fail (.call f)
    | .ended code stdout stderr overruns =>
      let output := c.capture code stdout stderr overruns
      c.note output
      c.conclude program output
      return output

end Command

end Assay
