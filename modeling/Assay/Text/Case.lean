import Assay.Text.Case.Table

/-!
# Lower and upper case

`lower` and `upper` apply the full case mappings. A capital sigma becomes the final small sigma when
a cased character stands before it and none stands after it, characters without a case of their own
being passed over; everywhere else the mapping looks at one character at a time.
-/

namespace Assay.Text

/-- The code points that `n` becomes under a table of runs and of longer images. -/
def mapCase (runs : List CaseRun) (long : List (Nat × List Nat)) (n : Nat) : List Nat :=
  match long.lookup n with
  | some image => image
  | none =>
    match runs.find? fun r => r.covers n with
    | some r => [((n : Int) + r.shift).toNat]
    | none => [n]

def lowerChar (c : Char) : List Char :=
  if c.toNat < 128 then [c.toLower]
  else (mapCase lowerRuns lowerLong c.toNat).map Char.ofNat

def upperChar (c : Char) : List Char :=
  if c.toNat < 128 then [c.toUpper]
  else (mapCase upperRuns upperLong c.toNat).map Char.ofNat

/-- Whether the nearest character that is not passed over has a case. -/
def casedNext : List Char → Bool
  | [] => false
  | c :: rest =>
    if Range.anyMem caseIgnorableRanges c.toNat then casedNext rest
    else Range.anyMem casedRanges c.toNat

def capitalSigma : Char := Char.ofNat 0x3A3

def smallSigma : Char := Char.ofNat 0x3C3

def finalSigma : Char := Char.ofNat 0x3C2

/-- `before` holds the characters already read, the nearest first. -/
def lowerFrom (before : List Char) : List Char → List Char
  | [] => []
  | c :: rest =>
    let image :=
      if c = capitalSigma then
        [if casedNext before && !casedNext rest then finalSigma else smallSigma]
      else lowerChar c
    image ++ lowerFrom (c :: before) rest

def lower (s : String) : String :=
  String.ofList (lowerFrom [] s.toList)

def upper (s : String) : String :=
  String.ofList (s.toList.flatMap upperChar)

end Assay.Text
