import Assay.Fault

/-!
# Jobs

One function to check: the name of its test, its symbol in the binary, and the binary. `JobRecord`
is a job as a manifest writes it, before anyone has checked that the two names are texts;
`JobRecord.job?` is that check. A text is one that has bytes: a name with half of a surrogate pair in
it stays a record.
-/

namespace Assay

structure Job where
  displayName : String
  entrySymbol : String
  artifact : Path
  deriving DecidableEq, Repr

/-- A job whose names may be values of any kind. -/
structure JobRecord where
  displayName : Json
  entrySymbol : Json
  artifact : Path

namespace JobRecord

def job? (r : JobRecord) : Option Job := do
  let displayName ← r.displayName.text?
  let entrySymbol ← r.entrySymbol.text?
  return ⟨displayName, entrySymbol, r.artifact⟩

/-- A member of a record; all values but records have none. -/
def member (value : Json) (name : String) : Except RecordFault Json :=
  match value with
  | .object members =>
    match Json.member? members name with
    | some v => .ok v
    | none => .error (.missingField name)
  | v => .error (.notARecord v)

/-- The path that a value names, with a replacement for every half. -/
def path (value : Json) : Except RecordFault Path :=
  match value with
  | .literal l => .ok (Path.parse l.display)
  | v => .error (.notAPath v.kindName)

/-- The job that a value describes. `shared` is the binary of all jobs of a manifest, unless it is
null; a job's own binary is looked at only then. Neither name may be empty. -/
def ofJson (value shared : Json) : Except RecordFault JobRecord := do
  let displayName ← member value "display_name"
  let entrySymbol ← member value "entry_symbol"
  let artifact ←
    match shared with
    | .null => member value "artifact"
    | v => .ok v
  let artifact ← path artifact
  if displayName.isVacant then .error (.emptyName "display_name")
  else if entrySymbol.isVacant then .error (.emptyName "entry_symbol")
  else .ok ⟨displayName, entrySymbol, artifact⟩

def toJson (r : JobRecord) : Json :=
  .object [("display_name", r.displayName), ("entry_symbol", r.entrySymbol),
    ("artifact", .text r.artifact.text)]

end JobRecord

def Job.toJson (j : Job) : Json :=
  .object [("display_name", .text j.displayName), ("entry_symbol", .text j.entrySymbol),
    ("artifact", .text j.artifact.text)]

end Assay
