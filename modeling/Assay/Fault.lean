import Assay.Call
import Assay.Json.Reader
import Assay.Path

/-!
# Faults

Everything that can go wrong, by cause. Three families belong to the run itself: a `SetupFault` ends
the run before any job starts, a `JobFault` ends one job, and a `ReplayFault` ends one replay. The
other causes come from values, files and processes. `Fault.message` is the wording and
`Fault.kindName` the name of the class of faults, which the record of a crashed job shows.
-/

namespace Assay

/-- A record with a missing, empty or ill-typed field. -/
inductive RecordFault where
  | missingField (name : String)
  | emptyName (field : String)
  | notARecord (value : Json)
  | notAPath (kind : String)
  | notAList (kind : String)

def RecordFault.message : RecordFault → String
  | .missingField name => Text.quoted name
  | .emptyName field => "VerificationJob." ++ field ++ " must not be empty"
  | .notARecord (.literal _) => "string indices must be integers, not 'str'"
  | .notARecord (.array _) => "list indices must be integers or slices, not str"
  | .notARecord v => "'" ++ v.kindName ++ "' object is not subscriptable"
  | .notAPath kind => "expected str, bytes or os.PathLike object, not " ++ kind
  | .notAList kind => "'" ++ kind ++ "' object is not iterable"

def RecordFault.kindName : RecordFault → String
  | .missingField _ => "KeyError"
  | .emptyName _ => "ValueError"
  | _ => "TypeError"

def Json.Fault.message : Json.Fault → String
  | .malformed what line column offset =>
    what.message ++ ": line " ++ toString line ++ " column " ++ toString column ++ " (char " ++
      toString offset ++ ")"
  | .tooManyDigits count =>
    "Exceeds the limit (4300 digits) for integer string conversion: value has " ++
      toString count ++ " digits; use sys.set_int_max_str_digits() to increase the limit"
  | .tooDeep => "nesting too deep"

/-- Why a manifest could not be read. -/
inductive ManifestFault where
  | unreadable (f : OsFault)
  | malformed (f : Json.Fault)
  | noArtifact
  | badJob (f : RecordFault)

/-- The whole run cannot start. -/
inductive SetupFault where
  | unknownBackend (name : String)
  | notInstalled (backend : String)
  | argumentsUnsupported
  | replayUnsupported
  | replayWithArguments
  | missingTests (count : Int)
  | noTests
  | manifest (path : String) (f : ManifestFault)

def unknownBackendMessage (name : String) : String :=
  "Unknown verification backend: " ++ Text.quoted name ++
    ". Supported: 'klee', 'seahorn', 'smack', 'proptest', 'mock'"

def SetupFault.message : SetupFault → String
  | .unknownBackend name => unknownBackendMessage name
  | .notInstalled backend => backend ++ " is not installed"
  | .argumentsUnsupported => "The Seahorn backend does not support passing arguments yet."
  | .replayUnsupported => "The Seahorn backend does not support '--replay' yet."
  | .replayWithArguments =>
    "The Proptest backend does not support '--replay' and passing arguments together."
  | .missingTests count => "Unable to find " ++ toString count ++ " tests in bytecode file"
  | .noTests => "No tests found"
  | .manifest path (.unreadable f) =>
    "Cannot read job manifest '" ++ path ++ "': " ++ f.message
  | .manifest path (.malformed f) =>
    "Cannot read job manifest '" ++ path ++ "': " ++ f.message
  | .manifest path .noArtifact => "Invalid job manifest '" ++ path ++ "'"
  | .manifest path (.badJob f) =>
    "Invalid job in manifest '" ++ path ++ "': " ++ f.message

/-- One job cannot be run. -/
inductive JobFault where
  | unknownPlaceholder (key flag : String)
  | outputInTheWay (path : String)
  | commonDirMissing
  | cannotSpawn (program : String) (f : OsFault)
  | signalled (program : String)
  | exited (program : String) (code : Int)
  | scripted (executable entry : String)

def JobFault.message : JobFault → String
  | .unknownPlaceholder key flag =>
    "Unknown placeholder '\x7b" ++ key ++ "\x7d' in backend flag '" ++ flag ++ "'"
  | .outputInTheWay path =>
    "Directory or file '" ++ path ++ "' already exists, and can't be removed"
  | .commonDirMissing => "The '--seahorn-verify-c-common-dir' option is missing"
  | .cannotSpawn program f => "FAILED: unable to run '" ++ program ++ "': " ++ f.message
  | .signalled program => "FAILED: '" ++ program ++ "' terminated by a signal."
  | .exited program code =>
    "FAILED: '" ++ program ++ "' terminated with exit code " ++ toString code ++ "."
  | .scripted executable entry => "FAILED: unable to run '" ++ executable ++ "' for " ++ entry

/-- One counterexample cannot be replayed. -/
inductive ReplayFault where
  | noCounterexample (path : String)
  | unsupported (backend : String)
  | notRun (f : JobFault)

def ReplayFault.message : ReplayFault → String
  | .noCounterexample path => "Counterexample '" ++ path ++ "' does not exist"
  | .unsupported backend => "The " ++ backend ++ " backend does not support '--replay'"
  | .notRun f => f.message

/-- A text or value that is not the number it should be. -/
inductive NumberFault where
  /-- The text comes as it is shown. -/
  | notAnInteger (shown : String)
  | tooManyDigits (count : Nat)
  | notADecimal (text : String)
  | notANumber (kind : String)
  | undefinedNumber
  | infiniteNumber
  /-- An integer has more digits than a message can show. -/
  | tooLarge

/-- A message about an integer shows at most this much of its text. -/
def shownIntegerLength : Nat := 200

def NumberFault.message : NumberFault → String
  | .notAnInteger shown =>
    "invalid literal for int() with base 10: " ++
      String.ofList (shown.toList.take shownIntegerLength)
  | .tooManyDigits count => (Json.Fault.tooManyDigits count).message
  | .notADecimal text => "could not convert string to float: " ++ Text.quoted text
  | .notANumber kind =>
    "int() argument must be a string, a bytes-like object or a real number, not '" ++ kind ++ "'"
  | .undefinedNumber => "cannot convert float NaN to integer"
  | .infiniteNumber => "cannot convert float infinity to integer"
  | .tooLarge =>
    "Exceeds the limit (4300 digits) for integer string conversion; " ++
      "use sys.set_int_max_str_digits() to increase the limit"

def NumberFault.kindName : NumberFault → String
  | .notANumber _ => "TypeError"
  | .infiniteNumber => "OverflowError"
  | _ => "ValueError"

/-- A setting that was given, but given nothing, is needed after all. -/
inductive GapFault where
  /-- The directory of the project's manifest. -/
  | directory
  /-- A list of backend flags. -/
  | flags
  /-- A list of features. -/
  | features
  /-- The number of workers. -/
  | workers
  /-- A time limit. -/
  | limit
  /-- A filter for names. -/
  | filter

def GapFault.message : GapFault → String
  | .directory => "'list' object has no attribute 'parent'"
  | .flags => "'list' object has no attribute 'split'"
  | .features => "'list' object has no attribute 'replace'"
  | .workers => "'<=' not supported between instances of 'list' and 'int'"
  | .limit => "float() argument must be a string or a real number, not 'list'"
  | .filter => "'in <string>' requires string as left operand, not list"

def GapFault.kindName : GapFault → String
  | .directory | .flags | .features => "AttributeError"
  | _ => "TypeError"

inductive Fault where
  | setup (f : SetupFault)
  | job (f : JobFault)
  | replay (f : ReplayFault)
  | disk (f : OsFault)
  | record (f : RecordFault)
  | number (f : NumberFault)
  | gap (f : GapFault)
  /-- No backend has this name. -/
  | unknownBackend (name : String)
  /-- A scripted backend speaks the dialect of no tool. -/
  | unknownDialect (name : String)
  | unknownVerdict (shown : String)
  /-- A name that has to be a text is a value of another kind. -/
  | nameNotText (index : Nat) (kind : String)
  /-- A name of this kind holds no texts that a filter could be compared with. -/
  | nameNotSearchable (kind : String)
  /-- A value of this kind cannot be looked up. -/
  | notAKey (kind : String)
  | nullByte
  /-- A call was not carried out. -/
  | call (f : CallFault)
  | emptyCommand
  /-- A file is not valid UTF-8. -/
  | undecodable
  /-- A text that is to be written has no bytes. -/
  | unencodable
  /-- A result has a field of the wrong type. -/
  | invalidResult
  | tooDeep
  | poolExists
  | poolClosed
  | poolTooSmall (workers : Int)
  /-- The command line asks for no run: it is faulty, or it asks for help. -/
  | usage (status : Nat) (complaint : String)

namespace Fault

def message : Fault → String
  | .setup f => f.message
  | .job f => f.message
  | .replay f => f.message
  | .disk f => f.message
  | .record f => f.message
  | .number f => f.message
  | .gap f => f.message
  | .unknownBackend name => unknownBackendMessage name
  | .unknownDialect name => Text.quoted name
  | .unknownVerdict shown => shown ++ " is not a valid Verdict"
  | .nameNotText index kind =>
    "sequence item " ++ toString index ++ ": expected str instance, " ++ kind ++ " found"
  | .nameNotSearchable kind => "argument of type '" ++ kind ++ "' is not iterable"
  | .notAKey kind => "unhashable type: '" ++ kind ++ "'"
  | .nullByte => "embedded null byte"
  | .call f => f.message
  | .emptyCommand => "list index out of range"
  | .undecodable => "invalid UTF-8"
  | .unencodable => "surrogates not allowed"
  | .invalidResult => "invalid result"
  | .tooDeep => "maximum recursion depth exceeded while calling a Python object"
  | .poolExists => "worker pool is already configured"
  | .poolClosed => "cannot schedule new futures after shutdown"
  | .poolTooSmall workers => "worker count must be at least 1, got " ++ toString workers
  | .usage status _ => toString status

def kindName : Fault → String
  | .setup _ => "SetupError"
  | .job _ => "JobError"
  | .replay _ => "ReplayError"
  | .disk f => f.kindName
  | .record f => f.kindName
  | .number f => f.kindName
  | .gap f => f.kindName
  | .unknownBackend _ => "ValueError"
  | .unknownDialect _ => "KeyError"
  | .unknownVerdict _ => "ValueError"
  | .nameNotText .. => "TypeError"
  | .nameNotSearchable _ => "TypeError"
  | .notAKey _ => "TypeError"
  | .nullByte => "ValueError"
  | .call f => f.kindName
  | .emptyCommand => "IndexError"
  | .undecodable => "UnicodeDecodeError"
  | .unencodable => "UnicodeEncodeError"
  | .invalidResult => "ValidationError"
  | .tooDeep => "RecursionError"
  | .poolExists => "RuntimeError"
  | .poolClosed => "RuntimeError"
  | .poolTooSmall _ => "ValueError"
  | .usage .. => "SystemExit"

end Fault

end Assay
