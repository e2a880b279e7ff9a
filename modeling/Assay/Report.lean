import Assay.Action
import Assay.Json.Reader
import Assay.Suite.Decoding
import Assay.Suite.Encoding
import Assay.Text.Lines

/-!
# Reports

A report is a file with one suite a line, written as JSON. A run appends its suite; reading skips
blank lines, and lines that hold no suite with a warning.
-/

namespace Assay.Report

/-- The line of a suite, with its end. -/
def line (s : Suite) : String :=
  s.toJson.render ++ "\n"

/-- Adds a suite to a report, which is made if there is none. -/
def append (path : Path) (s : Suite) : Action Unit := do
  Action.makeDirectories path.parent
  Action.refuseNull path.text
  Action.changeDisk fun d => d.extend path.text (Text.encode (line s))
  Action.logInfo .report ("Appended suite report to " ++ path.text)

/-- The suite of a line, if it holds one whose values are nested no deeper than this. Numbers of too
many digits and too deep nesting are not a matter of the line alone. -/
def suiteOf (depth : Nat) (line : List Char) : Except Fault (Option Suite) :=
  match Json.parse (String.ofList line) depth with
  | .ok v => .ok (Suite.ofJson? v)
  | .error (.malformed ..) => .ok none
  | .error (.tooManyDigits count) => .error (.number (.tooManyDigits count))
  | .error .tooDeep => .error .tooDeep

/-- The suites of one line: none or one. -/
def readLine (depth : Nat) (path : Path) (line : List Char) : Action (List Suite) := do
  let line := Text.trim line
  if line.isEmpty then return []
  else
    match ← Action.ofExcept (suiteOf depth line) with
    | some s => return [s]
    | none =>
      Action.log .warning .report ("Skipping invalid line in report " ++ path.text)
      return []

/-- Files are read in blocks of this many bytes. -/
def blockSize : Nat := 8192

/-- What can be read of an invalid text before its invalidity shows: the blocks before the one with
the faulty byte. -/
def readableBytes (content : Text.Bytes) : Text.Bytes :=
  match Text.faultyByte? .idle content with
  | some n => content.take (n / blockSize * blockSize)
  | none => content

/-- The lines of a text that are known to have ended. After a carriage return at the very end a line
feed may follow, so that it ends no line yet. -/
def endedLines (text : List Char) : List (List Char) :=
  let text := if text.getLast? = some '\r' then text.dropLast else text
  let unified := Text.unifyNewlines text
  Text.newlineLines (unified.reverse.dropWhile (· ≠ '\n')).reverse

/-- The suites of lines, in order. -/
def readLines (depth : Nat) (path : Path) (lines : List (List Char)) : Action (List Suite) := do
  let found ← lines.mapM (readLine depth path)
  return found.flatten

/-- The suites in the bytes of a report. A text that turns out to be invalid is a fault; by then the
lines before have been read. -/
def readContent (depth : Nat) (path : Path) (content : Text.Bytes) : Action (List Suite) :=
  match Text.decode? content with
  | some text => readLines depth path (Text.newlineLines (Text.unifyNewlines text.toList))
  | none => do
    let _ ← readLines depth path (endedLines (Text.decodeValid (readableBytes content)))
    Action.fail .undecodable

/-- The suites of a report, in order; a report that is not there has none. -/
def load (path : Path) : Action (List Suite) := do
  if !(← Action.askDisk fun d => d.exists? path.text) then return []
  else
    Action.refuseNull path.text
    let content ← Action.askDisk fun d => d.read path.text
    readContent (← Action.host).maxDepth path content

end Assay.Report
