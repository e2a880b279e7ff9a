import Assay.Text.Blank
import Assay.Text.Digit

/-!
# Reading integers

The lenient decimal notation of settings and counts: blanks around, an optional sign, digits of any
script, and single underscores between digits. More than `maxDigits` digits are refused before
anything after them is looked at.
-/

namespace Assay.Number

open Assay.Text

/-- The most digits that a decimal integer may have. -/
def maxDigits : Nat := 4300

inductive IntegerFault where
  | malformed
  | tooManyDigits (count : Nat)
  deriving DecidableEq, Repr

/-- The blanks allowed around a number: the information separators are not among them. -/
def isNumberBlank (c : Char) : Bool :=
  isAsciiBlank c || (127 ≤ c.toNat && isBlank c)

/-- The natural number whose digits, the highest first, are `ds`. -/
def ofDigits (ds : List Nat) : Nat :=
  ds.foldl (fun n d => n * 10 + d) 0

/-- The digit values of a run of digits; `none` where a character is no digit. -/
def digitValues? (cs : List Char) : Option (List Nat) :=
  cs.mapM digitValue?

/-- Underscores stand singly and between two digits. -/
def underscoresFit : List Char → Bool
  | [] => true
  | ['_'] => false
  | '_' :: '_' :: _ => false
  | _ :: rest => underscoresFit rest

def splitSign : List Char → Bool × List Char
  | '-' :: rest => (true, rest)
  | '+' :: rest => (false, rest)
  | cs => (false, cs)

def signed (negative : Bool) (n : Nat) : Int :=
  if negative then -(n : Int) else n

def isDigitOrUnderscore (c : Char) : Bool :=
  isDecimalDigit c || c == '_'

/-- The integer that a text denotes. -/
def readInteger (cs : List Char) : Except IntegerFault Int :=
  let (negative, body) := splitSign (cs.dropWhile isNumberBlank)
  let run := body.takeWhile isDigitOrUnderscore
  let rest := body.dropWhile isDigitOrUnderscore
  let digits := run.filter isDecimalDigit
  if run.head? = some '_' || !underscoresFit run then .error .malformed
  else if maxDigits < digits.length then .error (.tooManyDigits digits.length)
  else if digits.isEmpty || !rest.all isNumberBlank then .error .malformed
  else .ok (signed negative (ofDigits (digits.filterMap digitValue?)))

/-- The decimal text of an integer. -/
def integerText (n : Int) : String :=
  toString n

end Assay.Number
