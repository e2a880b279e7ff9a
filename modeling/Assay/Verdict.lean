/-!
# Verdicts

The outcome of one verification job. Verdicts are only ever compared for equality.
-/

namespace Assay

inductive Verdict where
  | unknown
  | verified
  | error
  | assertFailed
  | outOfBounds
  | overflow
  | panic
  | reachable
  | timeout
  deriving DecidableEq, Repr

namespace Verdict

def all : List Verdict :=
  [.unknown, .verified, .error, .assertFailed, .outOfBounds, .overflow, .panic, .reachable, .timeout]

def name : Verdict → String
  | .unknown => "UNKNOWN"
  | .verified => "VERIFIED"
  | .error => "ERROR"
  | .assertFailed => "ASSERT_FAILED"
  | .outOfBounds => "OUT_OF_BOUNDS"
  | .overflow => "OVERFLOW"
  | .panic => "PANIC"
  | .reachable => "REACHABLE"
  | .timeout => "TIMEOUT"

def ofName? (s : String) : Option Verdict :=
  all.find? fun v => v.name == s

/-- The label in the line of a test and in the summary. -/
def label (v : Verdict) : String :=
  if v = .verified then "OK" else v.name

/-- The character that stands for a test when the output is quiet. -/
def mark : Verdict → Char
  | .unknown => '?'
  | .verified => '.'
  | .error => 'F'
  | .assertFailed => 'A'
  | .outOfBounds => 'B'
  | .overflow => 'O'
  | .panic => 'P'
  | .reachable => 'R'
  | .timeout => 'T'

def passed (v : Verdict) : Bool :=
  v = .verified

theorem mem_all (v : Verdict) : v ∈ all := by
  cases v <;> simp [all]

end Verdict

end Assay
