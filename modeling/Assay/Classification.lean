import Assay.Rule

/-!
# Classification

The verdict on a run's output: the first line that some rule decides decides the run, and the first
rule that matches a line decides the line. `verdict?` is that function on its own; `classify` logs
on the way, warns when no line decides, and then gives the verdict `unknown`.
-/

namespace Assay.Classification

/-- The deciding rule of a line, and its verdict if the line is a signal. -/
def ofLine (rules : List Rule) (ctx : LineContext) (line : String) :
    Option Rule × Option Verdict :=
  match firstMatch Rule.condition ctx line rules with
  | none => (none, none)
  | some rule => (some rule, rule.signal.verdict? ctx)

def verdictOfLine? (rules : List Rule) (ctx : LineContext) (line : String) : Option Verdict :=
  (ofLine rules ctx line).2

/-- The verdict of the first line that has one. -/
def verdict? (rules : List Rule) (ctx : LineContext) (lines : List String) : Option Verdict :=
  lines.findSome? (verdictOfLine? rules ctx)

/-- What is logged while the lines are read: those after the deciding line are not. -/
def notes (rules : List Rule) (ctx : LineContext) : List String → List String
  | [] => []
  | line :: rest =>
    matchNotes Rule.condition ctx line rules ++
      match verdictOfLine? rules ctx line with
      | some _ => []
      | none => notes rules ctx rest

/-- The warning about a run that no line decides: its name, and its lines. -/
def undecidedWarnings (name : String) (lines : List String) : List String :=
  ("Unable to determine status of " ++ name) :: lines.map fun l => "     " ++ name ++ ": " ++ l

def logNotes (messages : List String) : Action Unit :=
  messages.forM (Action.logInfo .expectation)

def classify (rules : List Rule) (expect : Expectation) (name : String) (lines : List String) :
    Action Verdict := do
  let ctx : LineContext := ⟨expect, name⟩
  logNotes (notes rules ctx lines)
  match verdict? rules ctx lines with
  | some v => return v
  | none =>
    (undecidedWarnings name lines).forM (Action.log .warning .classifier)
    return .unknown

end Assay.Classification
