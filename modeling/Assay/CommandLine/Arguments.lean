import Assay.CommandLine.Word
import Assay.Config
import Assay.Given

/-!
# Arguments

What a command line asks for. Its words are taken in order: a switch takes its value, short switches
written together are taken one by one, and the first run of other words are the arguments for the
program under test, without the separator. Arguments in a second place are not recognised, and
neither are unknown switches; that is complained about last.
-/

namespace Assay.CommandLine

structure Arguments where
  manifestPath : Given Path
  jobManifest : Option (Given Path)
  backend : Option String
  backendFlags : List (Given String)
  replaceBackendFlags : Bool
  commonDir : Option String
  features : List (Given String)
  tests : Bool
  testFilters : List (Given String)
  jobs : Option (Given Int)
  replay : Nat
  verbose : Nat
  quiet : Bool
  script : Option (Given Path)
  report : Option (Given Path)
  jobTimeout : Option (Given Number.Binary64)
  args : List String
  deriving DecidableEq, Repr

def Arguments.none : Arguments where
  manifestPath := .value (Path.parse "Cargo.toml")
  jobManifest := Option.none
  backend := Option.none
  backendFlags := []
  replaceBackendFlags := false
  commonDir := Option.none
  features := []
  tests := false
  testFilters := []
  jobs := Option.none
  replay := 0
  verbose := 0
  quiet := false
  script := Option.none
  report := Option.none
  jobTimeout := Option.none
  args := []

/-- Why no run follows from a command line. -/
inductive Refusal where
  | helpWanted
  | complaint (c : Complaint)

/-- What a switch is given by the value attached to it. -/
def given (value : String) : Given String :=
  if value = separator then .nothing else .value value

/-- A backend that can be asked for. -/
def readBackend (value : String) : Except Refusal String :=
  let name := Text.lower value
  if name ∈ backendChoices then .ok name
  else .error (.complaint (.notAChoice .backend name))

def readJobs (value : String) : Except Refusal Int :=
  match Number.readInteger value.toList with
  | .ok n => .ok n
  | .error _ => .error (.complaint (.notAnInteger .jobs value))

def readTimeout (value : String) : Except Refusal Number.Binary64 :=
  match Number.readBinary64 value.toList with
  | some x => .ok x
  | Option.none => .error (.complaint (.notANumber .jobTimeout value))

/-- The arguments with one more switch. A switch without a value ignores the one it is given. Where
only the last value counts and none is as good as an empty one, nothing is none. -/
def Arguments.apply (a : Arguments) (s : Switch) (value : String) : Except Refusal Arguments :=
  let value := given value
  match s with
  | .help => .error .helpWanted
  | .manifestPath => .ok { a with manifestPath := value.map Path.parse }
  | .jobManifest => .ok { a with jobManifest := some (value.map Path.parse) }
  | .backend => do return { a with backend := (← value.read readBackend).value? }
  | .backendFlags => .ok { a with backendFlags := a.backendFlags ++ [value] }
  | .replaceBackendFlags => .ok { a with replaceBackendFlags := true }
  | .commonDir => .ok { a with commonDir := value.value? }
  | .features => .ok { a with features := a.features ++ [value] }
  | .tests => .ok { a with tests := true }
  | .test => .ok { a with testFilters := a.testFilters ++ [value] }
  | .jobs => do return { a with jobs := some (← value.read readJobs) }
  | .replay => .ok { a with replay := a.replay + 1 }
  | .verbose => .ok { a with verbose := a.verbose + 1 }
  | .quiet => .ok { a with quiet := true }
  | .script => .ok { a with script := some (value.map Path.parse) }
  | .report => .ok { a with report := some (value.map Path.parse) }
  | .jobTimeout => do return { a with jobTimeout := some (← value.read readTimeout) }

/-- The switches that are written in one word. The last of them may be left without a value that it
needs; the others take none. `long` says that the word is spelled with two dashes. -/
def unbundle (s : Switch) (long : Bool) (attached : List Char) :
    Except Complaint (List Switch × Switch × Option String) :=
  if s.takesValue then .ok ([], s, some (String.ofList attached))
  else
    match attached with
    | [] => .error (.superfluousValue s "")
    | c :: rest =>
      if long then .error (.superfluousValue s (String.ofList attached))
      else
        match Switch.ofSpelling? (String.ofList ['-', c]) with
        | Option.none => .error (.superfluousValue s (String.ofList attached))
        | some next =>
          if rest.isEmpty then .ok ([s], next, Option.none)
          else (unbundle next false rest).map fun (before, last) => (s :: before, last)

/-- The switches of one word, and the value attached to the last. -/
def switchesOf (s : Switch) (spelling : String) (value : Option String) :
    Except Complaint (List Switch × Switch × Option String) :=
  match value with
  | Option.none => .ok ([], s, Option.none)
  | some value => unbundle s (Text.startsWith "--" spelling) value.toList

/-- Whether a word can stand in a run of arguments. -/
def Word.isPlain (w : Word) : Bool :=
  w.kind = .argument || w.kind = .separator

/-- What has been read of a command line. -/
structure Progress where
  arguments : Arguments
  /-- Whether the place of the program's arguments is behind. -/
  filled : Bool
  unrecognized : List String

namespace Progress

def begin : Progress := ⟨.none, false, []⟩

/-- A run of plain words: the program's arguments, or too many. The first separator is dropped. -/
def takePlain (p : Progress) (texts : List String) : Progress :=
  if p.filled then { p with unrecognized := p.unrecognized ++ texts }
  else { p with arguments := { p.arguments with args := texts.erase separator }, filled := true }

def takeSwitches (p : Progress) (before : List Switch) (last : Switch) (value : String) :
    Except Refusal Progress := do
  let arguments ← before.foldlM (fun a s => a.apply s "") p.arguments
  let arguments ← arguments.apply last value
  return { p with arguments := arguments }

end Progress

/-- Reads the words in order. `plain` holds the plain words just before them. -/
def readWords (p : Progress) (plain : List String) : List Word → Except Refusal Progress
  | [] => .ok (if plain.isEmpty then p else p.takePlain plain)
  | w :: rest =>
    let settled := if plain.isEmpty then p else p.takePlain plain
    match w.kind with
    | .argument => readWords p (plain ++ [w.text]) rest
    | .separator => readWords p (plain ++ [w.text]) rest
    | .unknown =>
      readWords { settled with unrecognized := settled.unrecognized ++ [w.text] } [] rest
    | .switch s spelling value =>
      match switchesOf s spelling value with
      | .error c => .error (.complaint c)
      | .ok (before, last, some value) => do
        readWords (← settled.takeSwitches before last value) [] rest
      | .ok (before, last, Option.none) =>
        if last.takesValue then
          match rest with
          | ⟨text, .argument⟩ :: rest => do
            readWords (← settled.takeSwitches before last text) [] rest
          | _ => .error (.complaint (.missingValue last))
        else do
          readWords (← settled.takeSwitches before last "") [] rest

/-- What the words after the program's name ask for. -/
def parse (argv : List String) : Except Refusal Arguments :=
  match words argv with
  | .error c => .error (.complaint c)
  | .ok ws => do
    let p ← readWords .begin [] ws
    if p.unrecognized.isEmpty then return p.arguments
    else .error (.complaint (.unrecognized p.unrecognized))

/-- The non-empty parts of texts between commas. -/
def commaList (values : List String) : List String :=
  values.flatMap (Text.pieces fun c => c == ',')

/-- How nothing is shown where a text is expected. -/
def shownNothing : String := "[]"

/-- The backend flags in lists between commas; each list has to be there. -/
def Arguments.flags (a : Arguments) : Except GapFault (List String) :=
  if a.backendFlags.any Given.isNothing then .error .flags
  else .ok (commaList (a.backendFlags.filterMap Given.value?))

/-- The configuration that a command line asks for, on top of the environment's settings. A setting
that was given nothing keeps its standard, and a filter is shown as nothing is. -/
def Arguments.configure (a : Arguments) (c : Config) (flags : List String) : Config :=
  { c with
    manifestPath := a.manifestPath.getD c.manifestPath
    backend := a.backend.or c.backend
    backendFlags := flags
    replaceBackendFlags := a.replaceBackendFlags
    commonDir := (a.commonDir.filter fun s => !s.isEmpty).or c.commonDir
    features := a.features.filterMap Given.value?
    tests := a.tests
    testFilters := a.testFilters.map fun g => g.getD shownNothing
    args := a.args
    jobs := (a.jobs.bind Given.value?).getD c.jobs
    replay := a.replay
    verbose := a.verbose
    quiet := a.quiet
    script := a.script.bind Given.value?
    report := a.report.bind Given.value?
    jobTimeout := a.jobTimeout.or c.jobTimeout }

/-- What cannot be told of a configuration with settings that were given nothing. -/
def Arguments.untold (a : Arguments) : Except GapFault Unit :=
  if a.jobTimeout = some .nothing then .error .limit
  else if a.manifestPath.isNothing then .error .directory
  else if a.features.any Given.isNothing then .error .features
  else .ok ()

/-- The status with which the program exits when no run follows, and what it says. -/
def Refusal.toFault : Refusal → Fault
  | .helpWanted => .usage 0 ""
  | .complaint c => .usage 2 ("cargo-verify: error: " ++ c.message)

end Assay.CommandLine
