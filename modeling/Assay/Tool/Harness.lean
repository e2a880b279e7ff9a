import Assay.Tool.Basic

/-!
# The project's own test harness

No verifier at all: `cargo test` runs once for the whole suite. It is always there, and is what a
run falls back on. Its exit code decides, and its output is looked at only after a failure.
-/

namespace Assay.Harness

def rules : List Rule :=
  [⟨"with-overflow", .contains "with overflow", .verdict .overflow⟩]

def tool : Tool where
  name := "Proptest"
  executable := "cargo"
  outputRoot := ""
  features := []
  markerStreams := [.stderr]
  verdictStreams := [.stderr]
  echoStreams := [.stderr]
  latin1 := false
  wantsOutputDir := true
  rules := rules
  ranks := []

/-- Each request for more output is passed on. When counterexamples are replayed, the program's own
arguments give way to one that shows its output. -/
def arguments (c : Config) (flags : List String) : List String :=
  let features := c.splitFeatures
  ["test", "--manifest-path", c.manifestPath.text] ++
    List.replicate c.verbose.toNat "-v" ++
    (if features.isEmpty then [] else ["--features", Text.joinWith "," features]) ++
    (if c.tests then ["--tests"] else []) ++
    c.testFilters.flatMap (fun t => ["--test", t]) ++
    flags ++ ["--", "--nocapture"] ++
    if 0 < c.replay then ["--", "--nocapture"]
    else if c.args.isEmpty then []
    else "--" :: c.args

def validate (c : Config) : Except SetupFault Unit :=
  if 0 < c.replay && !c.args.isEmpty then .error .replayWithArguments else .ok ()

/-- The one job that stands for the whole run of the harness. -/
def suiteJob (c : Config) (artifact : Path) : Job :=
  let named := if c.package.isEmpty then c.projectDir.name else c.package
  ⟨if named.isEmpty then "main" else named, "main", artifact⟩

/-- The exit code decides; a failure is an overflow if some line says so. -/
def verdict (capture : Capture) (name : String) : Verdict :=
  if capture.timedOut then .timeout
  else if capture.success then .verified
  else
    let ctx : LineContext := ⟨none, name⟩
    let decided := (capture.lines [.stderr]).findSome? fun line =>
      (firstMatch Rule.condition ctx line rules).bind fun rule => rule.signal.verdict? ctx
    decided.getD .error

end Assay.Harness
