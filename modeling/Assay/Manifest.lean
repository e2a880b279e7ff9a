import Assay.Action
import Assay.Config
import Assay.Given
import Assay.Json.Reader
import Assay.Text.Lines

/-!
# Job manifests

The build hands over the jobs in a JSON file: the binary of all jobs, the jobs, and optionally the
package and how many jobs were asked for. Test filters choose among the jobs by name; the number
that was asked for means nothing then.
-/

namespace Assay

structure Manifest where
  /-- The package, if the manifest names one. -/
  package : Option String
  jobs : List JobRecord
  requested : Option Int

namespace Manifest

/-- Reads the file of a manifest. -/
def readJson (path : Path) : Action Json := do
  let unreadable (f : ManifestFault) : Action Json :=
    Action.fail (.setup (.manifest path.text f))
  Action.refuseNull path.text
  match (← Action.disk).read path.text with
  | .error f => unreadable (.unreadable f)
  | .ok content =>
    match Text.decode? content with
    | none => Action.fail .undecodable
    | some text =>
      let depth := (← Action.host).maxDepth
      match Json.parse (String.ofList (Text.unifyNewlines text.toList)) depth with
      | .ok v => return v
      | .error (.malformed what line column offset) =>
        unreadable (.malformed (.malformed what line column offset))
      | .error (.tooManyDigits count) => Action.fail (.number (.tooManyDigits count))
      | .error .tooDeep => Action.fail .tooDeep

/-- The values that a collection holds. Names stand for the members of an object, and characters
for a text. -/
def elements : Json → Except RecordFault (List Json)
  | .array items => .ok items
  | .object members => .ok (members.map fun m => .literal m.1)
  | .literal l => .ok (l.glyphs.map fun g => .literal (.ofGlyphs [g]))
  | v => .error (.notAList v.kindName)

/-- The jobs of a manifest; it has none if it does not mention any. -/
def jobsOf (members : List (Json.Literal × Json)) (artifact : Json) :
    Except RecordFault (List JobRecord) := do
  let values ← elements ((Json.member? members "jobs").getD (.array []))
  values.mapM fun v => JobRecord.ofJson v artifact

/-- The package of a manifest, with a replacement for every half; an empty value names none. -/
def packageOf (members : List (Json.Literal × Json)) : Option String :=
  ((Json.member? members "package").filter fun v => !v.isVacant).map Json.display

/-! ## Filters -/

/-- Whether a value is a list without items. -/
def isEmptyList : Json → Bool
  | .array items => items.isEmpty
  | _ => false

/-- Whether a name holds a text: as a part, an item or the name of a member. -/
def nameHolds (name : Json) (text : String) : Except Fault Bool :=
  match name with
  | .literal l => .ok (l.holds text)
  | .array items => .ok (items.any fun v => v.text? = some text)
  | .object members => .ok (members.any fun m => m.1 = .whole text)
  | v => .error (.nameNotSearchable v.kindName)

/-- Whether a name holds nothing: only a list of values can. -/
def nameHoldsNothing (name : Json) : Except Fault Bool :=
  match name with
  | .literal _ => .error (.gap .filter)
  | .array items => .ok (items.any isEmptyList)
  | .object _ => .error (.notAKey "list")
  | v => .error (.nameNotSearchable v.kindName)

/-- Whether a name holds what a filter was given. -/
def matchesFilter (name : Json) : Given String → Except Fault Bool
  | .value text => nameHolds name text
  | .nothing => nameHoldsNothing name

/-- Whether a name holds one of the filters; the first that it holds decides. -/
def passes (name : Json) : List (Given String) → Except Fault Bool
  | [] => .ok false
  | filter :: rest => do
    if ← matchesFilter name filter then return true else passes name rest

/-- The jobs that pass the filters, in order. -/
def select (filters : List (Given String)) : List JobRecord → Except Fault (List JobRecord)
  | [] => .ok []
  | job :: rest => do
    let passed ← passes job.displayName filters
    let rest ← select filters rest
    return if passed then job :: rest else rest

/-! ## The number of jobs -/

/-- The number that a literal spells. -/
def countOfLiteral (l : Json.Literal) : Except NumberFault Int :=
  match Config.readInteger l.display with
  | .error (.notAnInteger _) => .error (.notAnInteger l.quoted)
  | r => r

/-- The number that a value denotes. Fractions are cut off. -/
def countOf : Json → Except NumberFault Int
  | .integer n => .ok n
  | .bool b => .ok (if b then 1 else 0)
  | .number .nan => .error .undefinedNumber
  | .number (.infinite _) => .error .infiniteNumber
  | .number x => .ok (x.truncate?.getD 0)
  | .literal l => countOfLiteral l
  | v => .error (.notANumber v.kindName)

/-- How many jobs were asked for; null means that nobody says. -/
def requestedOf (members : List (Json.Literal × Json)) : Except NumberFault (Option Int) :=
  match Json.member? members "requested" with
  | none => .ok none
  | some .null => .ok none
  | some v => (countOf v).map some

/-! ## Loading -/

/-- What a value says about jobs. -/
def ofJson (path : Path) (filters : List (Given String)) (value : Json) : Except Fault Manifest :=
  match value with
  | .object members =>
    match Json.member? members "artifact" with
    | none => .error (.setup (.manifest path.text .noArtifact))
    | some artifact => do
      let jobs ← (jobsOf members artifact).mapError fun f => .setup (.manifest path.text (.badJob f))
      if filters.isEmpty then
        let requested ← (requestedOf members).mapError .number
        return ⟨packageOf members, jobs, requested⟩
      else
        let jobs ← select filters jobs
        return ⟨packageOf members, jobs, none⟩
  | _ => .error (.setup (.manifest path.text .noArtifact))

def load (path : Path) (filters : List (Given String)) : Action Manifest := do
  let value ← readJson path
  Action.ofExcept (ofJson path filters value)

end Manifest

end Assay
