import Assay.Marker
import Assay.Text.Blank

/-!
# Panic messages

A program that panics prints where it did and, between single quotes, why. `Panic.find?` reads the
first such message of a line, and `Panic.meets` says whether it is the panic that was announced.
-/

namespace Assay

structure Panic where
  message : String
  location : String
  deriving DecidableEq, Repr

namespace Panic

def opening : String := " panicked at '"

/-- The message after the opening: it goes on to the next quote, which a comma and blanks must
follow, and the location is the rest of the line. -/
def body? (cs : List Char) : Option Panic :=
  match cs.dropWhile (· != Text.singleQuote) with
  | _ :: ',' :: rest =>
    if (rest.head?.elim false Text.isBlank) then
      let place := (rest.dropWhile Text.isBlank).takeWhile (· != '\n')
      some ⟨String.ofList (cs.takeWhile (· != Text.singleQuote)), String.ofList place⟩
    else none
  | _ => none

/-- The panic whose message opens at the start of the text. -/
def here? (cs : List Char) : Option Panic :=
  if opening.toList.isPrefixOf cs then body? (cs.drop opening.toList.length) else none

/-- The first panic message in a text. -/
def search? : List Char → Option Panic
  | [] => none
  | c :: rest =>
    match here? (c :: rest) with
    | some found => some found
    | none => search? rest

def find? (line : String) : Option Panic :=
  search? line.toList

/-- The panic of a line, if the run expects it. -/
def expected? (line : String) (expect : Expectation) : Option Panic := do
  let text ← expect
  let panic ← find? line
  if Text.contains text panic.message then some panic else none

/-- Whether a line is a panic that the run expects. -/
def meets (line : String) (expect : Expectation) : Bool :=
  (expected? line expect).isSome

/-- What is logged when an expected panic is recognised. -/
def notes (line : String) (expect : Expectation) (name : String) : List String :=
  match expected? line expect with
  | none => []
  | some panic =>
    ["     " ++ name ++ ": Detected expected failure '" ++ panic.message ++ "' at " ++
        panic.location,
      "     Error message: " ++ line]

end Panic

end Assay
