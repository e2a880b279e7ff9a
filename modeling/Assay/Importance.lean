import Assay.Classification

/-!
# Importance

Which lines of a job's output are shown: those whose rank is below the verbosity. The rank of a line
comes from the first matching rule, or is the default.
-/

namespace Assay.Importance

def rank (rules : List RankRule) (ctx : LineContext) (default : Int) (line : String) : Int :=
  match firstMatch RankRule.condition ctx line rules with
  | none => default
  | some rule => rule.rank

/-- The lines important enough to be shown. -/
def shown (rules : List RankRule) (ctx : LineContext) (default verbose : Int)
    (lines : List String) : List String :=
  lines.filter fun l => rank rules ctx default l < verbose

def notes (rules : List RankRule) (ctx : LineContext) (lines : List String) : List String :=
  lines.flatMap fun l => matchNotes RankRule.condition ctx l rules

/-- Prints the lines important enough. -/
def echo (rules : List RankRule) (ctx : LineContext) (default verbose : Int)
    (lines : List String) : Action Unit := do
  Classification.logNotes (notes rules ctx lines)
  (shown rules ctx default verbose lines).forM Action.printLine

end Assay.Importance
