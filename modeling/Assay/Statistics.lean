import Assay.Fault
import Assay.Number.Integer
import Assay.Text.Search

/-!
# Statistics

KLEE reports numbers in lines `KLEE: done: <name> = <n>`. The name goes up to the last sign of
equality that a blank and a digit follow, so names may look like statistics themselves. A name that
is reported again keeps its place and takes the new number.
-/

namespace Assay.Statistics

open Assay.Text

def heading : String := "KLEE: done:"

/-- A text cut at the last place where a number is assigned: what stands before the sign of
equality, and the digits. -/
def lastAssignment? : List Char → Option (List Char × List Char)
  | [] => none
  | c :: rest =>
    match lastAssignment? rest with
    | some (name, digits) => some (c :: name, digits)
    | none =>
      if c = '=' && rest.head? = some ' ' then
        let digits := (rest.drop 1).takeWhile isDecimalDigit
        if digits.isEmpty then none else some ([], digits)
      else none

/-- The name and the digits of a line that reports a number. At least one blank must follow the
heading. -/
def reported? (line : String) : Option (String × List Char) :=
  let cs := line.toList
  if heading.toList.isPrefixOf cs then
    let rest := cs.drop heading.toList.length
    let body := rest.dropWhile isBlank
    if body.length = rest.length then none
    else
      (lastAssignment? (body.takeWhile (· != '\n'))).map fun (name, digits) =>
        (String.ofList (trim name), digits)
  else none

/-- The numbers found so far with what a further line reports. -/
def addLine (found : List (String × Int)) (line : String) :
    Except NumberFault (List (String × Int)) :=
  match reported? line with
  | none => .ok found
  | some (name, digits) =>
    match Number.readInteger digits with
    | .ok n => .ok (Json.put name n found)
    | .error (.tooManyDigits count) => .error (.tooManyDigits count)
    | .error .malformed => .error (.notAnInteger (Text.quoted (String.ofList digits)))

/-- The reported numbers, in the order in which their names first occurred. -/
def parse (lines : List String) : Except NumberFault (List (String × Int)) :=
  lines.foldlM addLine []

end Assay.Statistics
