import Assay.Text.Blank

/-!
# Lines

Two ways to cut a text into lines. `lines` is the wide one, for captured output: it knows every
line boundary of Unicode besides the old control characters, and a boundary at the very end starts
no further line. `unifyNewlines` and `newlineLines` are the narrow ones, for text files: carriage
returns are first turned into line feeds, and only line feeds end a line.
-/

namespace Assay.Text

/-- The characters that end a line of captured output. -/
def isLineBreak (c : Char) : Bool :=
  let n := c.toNat
  (10 ≤ n && n ≤ 13) || (28 ≤ n && n ≤ 30) || n == 0x85 || n == 0x2028 || n == 0x2029

/-- The lines of a text without their ends; a carriage return and line feed are one end. -/
def lines : List Char → List (List Char)
  | [] => []
  | '\r' :: '\n' :: rest => [] :: lines rest
  | c :: rest =>
    if isLineBreak c then [] :: lines rest
    else
      match lines rest with
      | [] => [[c]]
      | line :: more => (c :: line) :: more

def linesOf (s : String) : List String :=
  (lines s.toList).map String.ofList

/-- Carriage returns, alone or before a line feed, become line feeds. -/
def unifyNewlines : List Char → List Char
  | [] => []
  | '\r' :: '\n' :: rest => '\n' :: unifyNewlines rest
  | c :: rest => (if c = '\r' then '\n' else c) :: unifyNewlines rest

/-- The lines ended by line feeds, without their ends. -/
def newlineLines : List Char → List (List Char)
  | [] => []
  | c :: rest =>
    if c = '\n' then [] :: newlineLines rest
    else
      match newlineLines rest with
      | [] => [[c]]
      | line :: more => (c :: line) :: more

@[simp] theorem lines_nil : lines [] = [] := by
  simp [lines]

@[simp] theorem newlineLines_nil : newlineLines [] = [] := by
  simp [newlineLines]

/-- A text that ends a line and goes on is cut there. -/
theorem newlineLines_append_newline {l : List Char} (h : '\n' ∉ l) (rest : List Char) :
    newlineLines (l ++ '\n' :: rest) = l :: newlineLines rest := by
  induction l with
  | nil => simp [newlineLines]
  | cons c l ih =>
    simp only [List.mem_cons, not_or] at h
    simp [newlineLines, ih h.2, Ne.symm h.1]

end Assay.Text
