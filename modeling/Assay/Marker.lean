import Assay.Action
import Assay.Text.Search

/-!
# Expectation markers

An instrumented program announces on its own output that it is meant to panic, before it runs the
checked function. The announcement is a marker line; it may carry a text that the panic's message
must contain. What a run expects is decided by its last marker.
-/

namespace Assay

/-- No failure, any panic (the empty text), or a panic whose message contains the text. -/
abbrev Expectation := Option String

namespace Marker

/-- Every marker line begins with this, and so may lines that announce nothing. -/
def tag : String := "VERIFIER_EXPECT:"

def bare : String := "VERIFIER_EXPECT: should_panic"

def opening : String := "VERIFIER_EXPECT: should_panic(expected = \""

def closing : String := "\")"

def isMarker (line : String) : Bool :=
  Text.startsWith tag line

/-- The text between the opening and the closing of a line. -/
def inner (line : List Char) : List Char :=
  (line.drop opening.toList.length).take
    (line.length - closing.toList.length - opening.toList.length)

/-- The expectation that a line announces. -/
def parse (line : String) : Expectation :=
  if line = bare then some ""
  else if Text.startsWith opening line && Text.endsWith closing line then
    some (String.ofList (inner line.toList))
  else none

/-- What a run with these lines expects: its last announcement. -/
def expectation (lines : List String) : Expectation :=
  (lines.filterMap parse).getLast?

/-- Looks for the expectation and logs every text met on the way. -/
def extract (lines : List String) : Action Expectation := do
  (lines.filterMap parse).forM fun text =>
    if text.isEmpty then return ()
    else Action.logInfo .expectation ("Expecting '" ++ text ++ "'")
  return expectation lines

end Marker

end Assay
