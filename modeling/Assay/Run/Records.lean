import Assay.Run

/-!
# Runs of unchecked records

A manifest may give a job a name or an entry symbol that is no text. Nobody checks that when a run
starts: the harness never looks at either, a name that is no literal ends the run when the jobs are
listed, and an entry symbol that is no text serves for a command as the text that shows it, but an
outcome cannot hold it. Such a job ends the run when its outcome is written down.
-/

namespace Assay.Run

/-- A job as messages and commands show it. Halves in its names are shown by a replacement. -/
def shownJob (r : JobRecord) : Job :=
  ⟨r.displayName.display, r.entrySymbol.display, r.artifact⟩

/-- Whether a value is written as a string, be it a text or not. -/
def isLiteral : Json → Bool
  | .literal _ => true
  | _ => false

/-- The place and kind of the first name that is no literal. -/
def untextualName? (records : List JobRecord) : Option (Nat × String) :=
  (records.zipIdx.find? fun r => !isLiteral r.1.displayName).map fun r =>
    (r.2, r.1.displayName.kindName)

/-- Whether a flag takes in the entry symbol, and is a proper template otherwise. -/
def insertsEntry (job : Job) (output : Path) (flag : String) : Bool :=
  (Flag.format ⟨job.entrySymbol, job.artifact.text, output.text⟩ flag).isOk &&
    (Flag.pieces flag.toList).contains (.placeholder "entry".toList)

def isFaulty (job : Job) (output : Path) (flag : String) : Bool :=
  !(Flag.format ⟨job.entrySymbol, job.artifact.text, output.text⟩ flag).isOk

/-- Whether the command fails since a flag takes in an entry symbol that is no literal: the first
troublesome flag decides. -/
def entryMissesFlag (k : Checker) (job : Job) : Bool :=
  let output := k.backend.outputDir k.config job
  let trouble := k.config.backendFlags.find? fun f => insertsEntry job output f || isFaulty job output f
  (k.backend.requirements k.config).isOk && trouble.elim false (insertsEntry job output)

/-- Whether a value can be looked up among texts: lists and objects cannot. -/
def isKey : Json → Bool
  | .array _ => false
  | .object _ => false
  | _ => true

/-- Whether an entry symbol is looked up that cannot be: prepared output is kept under the first
argument of a command. -/
def entryMissesOutput (k : Checker) (entry : Json) (job : Job) : Bool :=
  match k.backend with
  | .canned _ =>
    !isKey entry && !k.config.replaceBackendFlags &&
      (k.backend.invocation k.config job (k.backend.outputDir k.config job)).isOk
  | _ => false

/-- What keeps a command from being made or run because of its entry symbol. -/
def entryFault? (k : Checker) (entry : Json) (job : Job) : Option Fault :=
  if !isLiteral entry && entryMissesFlag k job then some .invalidResult
  else if entryMissesOutput k entry job then some (.notAKey entry.kindName)
  else none

/-- What is done for a job whose entry symbol is no text, up to the failure. -/
def attemptShown (g : Gaps) (k : Checker) (r : JobRecord) : Action Unit := do
  let job := shownJob r
  Action.ofExcept g.needDirectory
  match entryFault? k r.entrySymbol job with
  | some f =>
    let output ← OutputDir.prepare k.backend k.config job
    k.announce job output
    Action.fail f
  | none =>
    let _ ← k.verify job
    Action.fail .invalidResult

/-- A job whose entry symbol is no text: it is tried, its failure is logged, and the run ends. -/
def failShown (g : Gaps) (k : Checker) (s : Scheduler) (r : JobRecord) : Action Outcome := do
  match ← Action.attempt (attemptShown g k r) with
  | .ok () => pure ()
  | .error f => s.logFault (shownJob r) f
  Action.fail .invalidResult

def runRecord (g : Gaps) (k : Checker) (s : Scheduler) (r : JobRecord) : Action Outcome :=
  match r.job? with
  | some job => s.runOne job
  | none => failShown g k s r

/-- The jobs of a pool are all taken up before the first failure shows. -/
def runPooled (g : Gaps) (k : Checker) (s : Scheduler) (records : List JobRecord) : Action Unit :=
  records.forM fun r => do
    let _ ← Action.attempt (runRecord g k s r)
    return ()

/-- A run of records of which some entry symbol is no text. -/
def breakOff (r : Run) (g : Gaps) (k : Checker) (records : List JobRecord) : Action Suite := do
  let jobs := records.map shownJob
  let s : Scheduler := ⟨k.backendName, g.verify k, r.effective⟩
  announce jobs
  Scheduler.announce records.length
  Action.ofExcept g.needWorkers
  if Scheduler.isSequential r.effective.jobs jobs then
    let _ ← records.mapM (runRecord g k s)
    Action.fail .invalidResult
  else
    runPooled g k s records
    Action.fail .invalidResult

/-- A run of records that are not all well-typed. -/
def suiteOfShown (r : Run) (g : Gaps) (records : List JobRecord) : Action Suite := do
  let k ← r.prepare records.length
  if k.backend.isHarness then
    let jobs ← Action.ofExcept (plan g k (records.map shownJob))
    r.carryOut g k jobs
  else
    match untextualName? records with
    | some (index, kind) => Action.fail (.nameNotText index kind)
    | none => r.breakOff g k records

/-- Runs the jobs of a manifest. -/
def suiteOfRecords (r : Run) (g : Gaps) (records : List JobRecord) : Action Suite :=
  match records.mapM JobRecord.job? with
  | some jobs => r.suiteWith g jobs
  | none => r.suiteOfShown g records

end Assay.Run
