import Assay.Text.Lines
import Assay.Text.Encoding

/-!
# Captured output

What is known of a process after its end: its exit code, the texts of its two streams, and whether
it was killed at its time limit.
-/

namespace Assay

inductive Stream where
  | stdout
  | stderr
  deriving DecidableEq, Repr

structure Capture where
  exitCode : Int
  stdout : String
  stderr : String
  timedOut : Bool
  deriving DecidableEq, Repr

namespace Capture

def success (c : Capture) : Bool :=
  c.exitCode = 0 && !c.timedOut

def text (c : Capture) : Stream → String
  | .stdout => c.stdout
  | .stderr => c.stderr

/-- The lines of the streams, one stream after the other. -/
def lines (c : Capture) (streams : List Stream) : List String :=
  streams.flatMap fun s => Text.linesOf (c.text s)

@[simp] theorem lines_nil (c : Capture) : c.lines [] = [] := rfl

theorem lines_cons (c : Capture) (s : Stream) (rest : List Stream) :
    c.lines (s :: rest) = Text.linesOf (c.text s) ++ c.lines rest := by
  simp [lines]

end Capture

end Assay
