import Assay.Job
import Assay.Rule

/-!
# Outcomes

What one job came to, and what a suite of jobs came to. The verdict of a suite is that of its first
job that did not pass.
-/

namespace Assay

structure Outcome where
  displayName : String
  entrySymbol : String
  verdict : Verdict
  expectation : Expectation
  error : Option String
  stats : List (String × Int)
  durationMs : Int
  counterexamples : List String
  deriving DecidableEq, Repr

/-- The outcome of a job that ended without one. -/
def Outcome.failed (job : Job) (error : String) : Outcome :=
  ⟨job.displayName, job.entrySymbol, .unknown, none, some error, [], 0, []⟩

structure Suite where
  backend : String
  total : Int
  passed : Int
  failed : Int
  verdict : Verdict
  outcomes : List Outcome
  deriving DecidableEq, Repr

namespace Suite

def passedCount (outcomes : List Outcome) : Nat :=
  outcomes.countP fun o => o.verdict.passed

/-- The verdict of the first outcome that did not pass. -/
def verdictOf (outcomes : List Outcome) : Verdict :=
  ((outcomes.find? fun o => !o.verdict.passed).map Outcome.verdict).getD .verified

def ofOutcomes (backend : String) (outcomes : List Outcome) : Suite :=
  let passed := passedCount outcomes
  ⟨backend, outcomes.length, passed, outcomes.length - passed, verdictOf outcomes, outcomes⟩

def verdicts (s : Suite) : List Verdict :=
  s.outcomes.map Outcome.verdict

def exitCode (s : Suite) : Nat :=
  if s.verdict.passed then 0 else 1

def summary (s : Suite) : String :=
  "test result: " ++ s.verdict.label ++ ". " ++ toString s.passed ++ " passed; " ++
    toString s.failed ++ " failed"

theorem verdictOf_eq_verified_iff {outcomes : List Outcome} :
    verdictOf outcomes = .verified ↔ ∀ o ∈ outcomes, o.verdict = .verified := by
  induction outcomes with
  | nil => simp [verdictOf]
  | cons o rest ih =>
    by_cases h : o.verdict = .verified
    · simp [verdictOf, Verdict.passed, h] at ih ⊢
      exact ih
    · simp [verdictOf, Verdict.passed, h]

end Suite

end Assay
