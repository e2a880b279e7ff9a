import Assay.Action
import Assay.Backend

/-!
# Counterexamples

KLEE leaves a `.ktest` file for every test it generated, and beside it an `.err` file if the test
reached an error; an error file's name is that of its test, the kind of error and the suffix. The
other tools leave nothing to replay.
-/

namespace Assay.Counterexample

def testHead : String := "test"

def errorTail : String := ".err"

def inputTail : String := ".ktest"

def isWildcard (c : Char) : Bool :=
  c == '*' || c == '?' || c == '['

/-- The components that are looked up as they are: those before the first one with a wildcard
character, which is searched for among the names of its directory. -/
def fixedParts (output : Path) : List String :=
  output.parts.takeWhile fun part => !part.toList.any isWildcard

/-- The paths in a directory whose names belong to a test and have this tail, in order. -/
def matching (output : Path) (tail : String) : Action (List Path) := do
  if (fixedParts output).any Disk.hasNull then Action.fail .nullByte
  else if Disk.hasNull output.text then return []
  else
    let names := (← Action.disk).list output.text
    let names := names.filter fun n => Text.startsWith testHead n && Text.endsWith tail n
    return Path.sort (names.map fun n => ⟨output.anchor, output.parts ++ [n]⟩)

/-- The input of the test that an error file belongs to. -/
def inputOf (errorFile : Path) : Path :=
  (errorFile.withSuffix "").withSuffix inputTail

/-- The error files of a finished run. -/
def failures (output : Path) : Action (List Path) := do
  let found ← matching output errorTail
  let shown := Text.joinWith ", " (found.map fun p => Text.quoted p.text)
  Action.logInfo .klee ("      Failing test: [" ++ shown ++ "]")
  return found

/-- The inputs worth a replay: those of failing tests, or all of them if the user asks twice. -/
def collect (b : Backend) (c : Config) (output : Path) : Action (List Path) :=
  match b with
  | .klee => do
    if 1 < c.replay then matching output inputTail
    else return Path.sort ((← failures output).map inputOf)
  | _ => return []

end Assay.Counterexample
