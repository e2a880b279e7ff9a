import Assay.Action
import Assay.Backend

/-!
# Choosing a backend

A backend that is asked for by name must be known and installed. If none is asked for, the first
installed verifier in order of preference is taken, and the project's own harness if there is none.
Whatever was chosen has to accept the combination of options.
-/

namespace Assay.Selection

/-- The verifiers that are looked for, the most wanted first. -/
def preference : List Backend :=
  [.klee, .seahorn, .smack]

def fallback : Backend := .harness

def preferred (h : Host) : Backend :=
  (preference.find? fun b => b.isInstalled h).getD fallback

/-- The backend of a name, if it can be used. -/
def named (h : Host) (name : String) : Except SetupFault Backend :=
  match Backend.ofName? name with
  | none => .error (.unknownBackend (Text.lower name))
  | some b => if b.isInstalled h then .ok b else .error (.notInstalled b.name)

/-- Tells which backend was found. -/
def announce (b : Backend) (c : Config) : Action Unit := do
  let message := "Using " ++ b.name ++ " as backend"
  Action.logInfo .backend message
  if Verbosity.normal.rank ≤ c.verbosity.rank then Action.printLine message

/-- The backend for a whole run. An empty choice is none. -/
def choose (choice : Option String) (c : Config) : Action Backend := do
  let h ← Action.host
  match choice.filter fun name => !name.isEmpty with
  | some name => Action.ofExcept ((named h name).mapError .setup)
  | none =>
    announce (preferred h) c
    return preferred h

/-- The chosen backend, once it has accepted the configuration. -/
def select (choice : Option String) (c : Config) : Action Backend := do
  let b ← choose choice c
  Action.ofExcept ((b.validate c).mapError .setup)
  return b

end Assay.Selection
