import Assay.Panic
import Assay.Verdict

/-!
# Rules

Tables of rules say what a line of output means. The conditions are data, so that the precedence of
the rules of a table can be read off it; `Condition.holds` evaluates a condition on a line and
`Condition.notes` says what is logged while it is evaluated, from left to right and no further than
needed.
-/

namespace Assay

/-- What a condition may look at besides the line. -/
structure LineContext where
  expect : Expectation
  name : String
  deriving DecidableEq, Repr

inductive Condition where
  | startsWith (text : String)
  | endsWith (text : String)
  | contains (text : String)
  | equals (text : String)
  | allOf (parts : List Condition)
  | anyOf (parts : List Condition)
  | isMarker
  | expectedPanic
  /-- Any other test of a line in its context. -/
  | satisfies (test : LineContext → String → Bool)
  deriving Inhabited

namespace Condition

mutual

def holds (ctx : LineContext) (line : String) : Condition → Bool
  | .startsWith text => Text.startsWith text line
  | .endsWith text => Text.endsWith text line
  | .contains text => Text.contains text line
  | .equals text => line = text
  | .allOf parts => allHold ctx line parts
  | .anyOf parts => anyHolds ctx line parts
  | .isMarker => Marker.isMarker line
  | .expectedPanic => Panic.meets line ctx.expect
  | .satisfies test => test ctx line

def allHold (ctx : LineContext) (line : String) : List Condition → Bool
  | [] => true
  | c :: rest => c.holds ctx line && allHold ctx line rest

def anyHolds (ctx : LineContext) (line : String) : List Condition → Bool
  | [] => false
  | c :: rest => c.holds ctx line || anyHolds ctx line rest

end

mutual

def notes (ctx : LineContext) (line : String) : Condition → List String
  | .allOf parts => notesOfAll ctx line parts
  | .anyOf parts => notesOfAny ctx line parts
  | .expectedPanic => Panic.notes line ctx.expect ctx.name
  | _ => []

/-- The notes up to the first part that fails. -/
def notesOfAll (ctx : LineContext) (line : String) : List Condition → List String
  | [] => []
  | c :: rest =>
    c.notes ctx line ++ if c.holds ctx line then notesOfAll ctx line rest else []

/-- The notes up to the first part that holds. -/
def notesOfAny (ctx : LineContext) (line : String) : List Condition → List String
  | [] => []
  | c :: rest =>
    c.notes ctx line ++ if c.holds ctx line then [] else notesOfAny ctx line rest

end

end Condition

/-- What a line means when its rule matches: a verdict, the end of a run that found nothing, or
explicitly nothing. -/
inductive Signal where
  | verdict (v : Verdict)
  | completion
  | noSignal
  deriving DecidableEq, Repr

/-- A completed run counts as verified only if no failure was expected. -/
def Signal.verdict? (ctx : LineContext) : Signal → Option Verdict
  | .verdict v => some v
  | .completion => some (if ctx.expect.isNone then .verified else .error)
  | .noSignal => none

structure Rule where
  name : String
  condition : Condition
  signal : Signal

/-- A rule that ranks a line for display; lower ranks are more important. -/
structure RankRule where
  name : String
  condition : Condition
  rank : Int

/-- The ranks that the tables use. -/
def rankAlways : Int := -1

def rankUncategorized : Int := 0

def rankBrief : Int := 1

def rankDetails : Int := 2

def rankApplication : Int := 3

def rankWarning : Int := 4

def rankNoise : Int := 5

/-- The rule that decides about a line: the first whose condition holds. -/
def firstMatch {ρ : Type} (condition : ρ → Condition) (ctx : LineContext) (line : String)
    (rules : List ρ) : Option ρ :=
  rules.find? fun r => (condition r).holds ctx line

/-- What is logged while the deciding rule is looked for. -/
def matchNotes {ρ : Type} (condition : ρ → Condition) (ctx : LineContext) (line : String) :
    List ρ → List String
  | [] => []
  | r :: rest =>
    (condition r).notes ctx line ++
      if (condition r).holds ctx line then [] else matchNotes condition ctx line rest

end Assay
