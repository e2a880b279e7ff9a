import Assay.Number.Integer
import Assay.Outcome
import Assay.Text.Search

/-!
# Suites from JSON

Reading is lenient about integers: truth values, numbers without a fraction and decimal texts count
as well. It is strict about everything else: texts are texts, verdicts are exact names, and only
optional fields may be null. Unknown fields are ignored, and fields with a default may be missing.
-/

namespace Assay.Suite

open Assay.Number

/-- Numbers of double precision count as integers only below this size. -/
def maxWhole : Nat := Nat.pow 2 63

def wholeNumber? (x : Binary64) : Option Int :=
  match x with
  | .finite negative m e =>
    let (num, den) := Binary64.fraction m e
    if num % den = 0 && num / den < maxWhole then some (signed negative (num / den)) else none
  | _ => none

/-- The white space around a decimal text; the information separators are not among it. -/
def isTextBlank (c : Char) : Bool :=
  Text.isBlank c && !(28 ≤ c.toNat && c.toNat ≤ 31)

/-- What follows the zeros at the start of a text, and the underscores among them. Zeros alone leave
their last character, and so do zeros before a point; a minus may follow them. -/
def afterZeros (last : Char) : List Char → Option (List Char)
  | [] => some [last]
  | c :: rest =>
    if c = '0' || c = '_' then afterZeros c rest
    else if c.isDigit || c = '-' then some (c :: rest)
    else if c = '.' then some (last :: c :: rest)
    else none

/-- A text without the zeros at its start. -/
def withoutLeadingZeros : List Char → Option (List Char)
  | [] => none
  | c :: rest =>
    if c = '0' then afterZeros c rest
    else if c.isDigit then some (c :: rest)
    else none

/-- A text without a fraction: a point may be followed by zeros only, and by at least one. -/
def withoutFraction (cs : List Char) : Option (List Char) :=
  match cs.dropWhile (· != '.') with
  | [] => some cs
  | _ :: fraction =>
    if fraction.isEmpty || !fraction.all (· == '0') then none else some (cs.takeWhile (· != '.'))

/-- A text without its underscores, if they stand singly and between other characters. -/
def withoutUnderscores (cs : List Char) : List Char :=
  if cs.head? = some '_' || !underscoresFit cs then cs else cs.filter (· != '_')

/-- A sign, and what follows it. Signs do not follow each other. -/
def decimalSign? : List Char → Option (Bool × List Char)
  | '+' :: '-' :: _ => none
  | '-' :: '-' :: _ => none
  | '-' :: '+' :: _ => none
  | cs => some (splitSign cs)

/-- The number of plain decimal digits that do not begin with a needless zero. A minus counts among
the digits when it comes to their number. -/
def plainDecimal? (cs : List Char) : Option Int :=
  let (negative, digits) :=
    match cs with
    | '-' :: rest => (true, rest)
    | _ => (false, cs)
  if digits.isEmpty || !digits.all Char.isDigit || maxDigits < cs.length then none
  else if digits.head? = some '0' && digits.length ≠ 1 then none
  else some (signed negative (ofDigits (digits.filterMap Text.digitValue?)))

/-- The integer that a text denotes: an optional sign, zeros, digits with single underscores between
them, and possibly a point and zeros. -/
def decimalText? (cs : List Char) : Option Int := do
  let (negative, body) ← decimalSign? (Text.trimBy isTextBlank cs)
  let body ← withoutLeadingZeros body
  let body ← withoutFraction body
  plainDecimal? ((if negative then ['-'] else []) ++ withoutUnderscores body)

def integer? : Json → Option Int
  | .integer n => some n
  | .bool b => some (if b then 1 else 0)
  | .number x => wholeNumber? x
  | .literal l => l.text?.bind fun s => decimalText? s.toList
  | _ => none

def optionalText? : Json → Option (Option String)
  | .null => some none
  | v => v.text?.map some

def verdict? (v : Json) : Option Verdict :=
  v.text?.bind Verdict.ofName?

/-- A field with a default: missing is as good as the default. -/
def fieldOr {α : Type} (members : List (Json.Literal × Json)) (name : String) (default : α)
    (read : Json → Option α) : Option α :=
  match Json.member? members name with
  | none => some default
  | some v => read v

def stats? : Json → Option (List (String × Int))
  | .object members => members.mapM fun (k, v) => do return (← k.text?, ← integer? v)
  | _ => none

def texts? : Json → Option (List String)
  | .array items => items.mapM Json.text?
  | _ => none

def outcome? : Json → Option Outcome
  | .object members => do
    let displayName ← (Json.member? members "display_name").bind Json.text?
    let entrySymbol ← (Json.member? members "entry_symbol").bind Json.text?
    let verdict ← (Json.member? members "verdict").bind verdict?
    let expectation ← fieldOr members "expectation" none optionalText?
    let error ← fieldOr members "error" none optionalText?
    let stats ← fieldOr members "stats" [] stats?
    let durationMs ← fieldOr members "duration_ms" 0 integer?
    let counterexamples ← fieldOr members "counterexamples" [] texts?
    return ⟨displayName, entrySymbol, verdict, expectation, error, stats, durationMs,
      counterexamples⟩
  | _ => none

def outcomes? : Json → Option (List Outcome)
  | .array items => items.mapM outcome?
  | _ => none

/-- The suite that a value describes. -/
def ofJson? : Json → Option Suite
  | .object members => do
    let backend ← (Json.member? members "backend").bind Json.text?
    let total ← (Json.member? members "total").bind integer?
    let passed ← (Json.member? members "passed").bind integer?
    let failed ← (Json.member? members "failed").bind integer?
    let verdict ← (Json.member? members "verdict").bind verdict?
    let outcomes ← (Json.member? members "outcomes").bind outcomes?
    return ⟨backend, total, passed, failed, verdict, outcomes⟩
  | _ => none

/-- The suite of a backend's name and outcomes that come as values. -/
def ofValues (backend : Json) (outcomes : List Json) : Except Fault Suite :=
  match outcomes.mapM outcome? with
  | none => .error .invalidResult
  | some outcomes =>
    match backend.text? with
    | none => .error .invalidResult
    | some backend => .ok (ofOutcomes backend outcomes)

end Assay.Suite
