import Assay.Tool.Basic

/-!
# KLEE

A symbolic execution engine. Everything of interest is on the error stream: its own diagnostics, the
program's panic messages, and the statistics after `KLEE: done:`. It refuses to start if its
directory for results exists already.
-/

namespace Assay.Klee

def isError : Condition := .startsWith "KLEE: ERROR:"

def rules : List Rule :=
  [ ⟨"halt-timer", .startsWith "KLEE: HaltTimer invoked", .verdict .timeout⟩,
    ⟨"halting", .startsWith "KLEE: halting execution, dumping remaining states",
      .verdict .timeout⟩,
    -- the set-up is broken, not the program under test
    ⟨"could-not-link", .startsWith "KLEE: ERROR: Could not link", .verdict .unknown⟩,
    ⟨"unable-to-load", .startsWith "KLEE: ERROR: Unable to load symbol", .verdict .unknown⟩,
    ⟨"klee-unreachable", .allOf [isError, .contains "unreachable"], .verdict .reachable⟩,
    ⟨"klee-overflow", .allOf [isError, .contains "overflow"], .verdict .overflow⟩,
    ⟨"klee-out-of-bounds", .allOf [isError, .contains "out of bound"], .verdict .outOfBounds⟩,
    ⟨"klee-error", isError, .verdict .error⟩,
    ⟨"expect-marker", .isMarker, .noSignal⟩,
    ⟨"expected-panic", .expectedPanic, .verdict .verified⟩,
    ⟨"assertion-failed", .contains "assertion failed", .verdict .assertFailed⟩,
    ⟨"verification-failed", .contains "verification failed", .verdict .error⟩,
    ⟨"index-out-of-bounds", .contains "index out of bounds", .verdict .outOfBounds⟩,
    ⟨"with-overflow", .contains "with overflow", .verdict .overflow⟩,
    ⟨"panicked", .contains "panicked at", .verdict .panic⟩,
    ⟨"backtrace-note", .contains "note: run with `RUST_BACKTRACE=1`", .verdict .error⟩,
    ⟨"done", .contains "KLEE: done:", .completion⟩ ]

def ranks : List RankRule :=
  [ ⟨"expect-marker", .isMarker, rankWarning⟩,
    -- reported when it is recognised
    ⟨"expected-panic", .expectedPanic, rankNoise⟩,
    ⟨"assertion-failed", .contains "assertion failed", rankBrief⟩,
    ⟨"verification-failed", .contains "verification failed", rankBrief⟩,
    ⟨"with-overflow", .contains "with overflow", rankBrief⟩,
    ⟨"could-not-link", .startsWith "KLEE: ERROR: Could not link", rankAlways⟩,
    ⟨"unable-to-load", .startsWith "KLEE: ERROR: Unable to load symbol", rankAlways⟩,
    ⟨"klee-error", isError, rankDetails⟩,
    ⟨"data-layout", .startsWith "warning: Linking two modules of different data layouts",
      rankWarning⟩,
    ⟨"klee-warning", .contains "KLEE: WARNING:", rankWarning⟩,
    ⟨"klee-warning-once", .contains "KLEE: WARNING ONCE:", rankWarning⟩,
    ⟨"output-directory", .startsWith "KLEE: output directory", rankNoise⟩,
    ⟨"using", .startsWith "KLEE: Using", rankNoise⟩,
    ⟨"posix-model", .startsWith "KLEE: NOTE: Using POSIX model", rankNoise⟩,
    ⟨"done", .startsWith "KLEE: done:", rankNoise⟩,
    ⟨"halt-timer", .startsWith "KLEE: HaltTimer invoked", rankNoise⟩,
    ⟨"halting", .startsWith "KLEE: halting execution, dumping remaining states", rankNoise⟩,
    ⟨"ignoring-error", .startsWith "KLEE: NOTE: now ignoring this error at this location",
      rankNoise⟩,
    -- whatever else it says has not been looked at yet, so it is shown
    ⟨"klee-other", .startsWith "KLEE:", rankUncategorized⟩ ]

def tool : Tool where
  name := "KLEE"
  executable := "klee"
  outputRoot := "kleeout"
  features := ["verifier-klee"]
  markerStreams := [.stderr]
  verdictStreams := [.stderr]
  echoStreams := [.stderr]
  latin1 := true
  wantsOutputDir := false
  rules := rules
  ranks := ranks

/-- The user's flags stand before the binary, the program's arguments after it. -/
def arguments (c : Config) (job : Job) (output : Path) (flags : List String) : List String :=
  ["--exit-on-error", "--entry-point", job.entrySymbol, "--libc=klee", "--silent-klee-assume",
    "--disable-verify", "--output-dir", output.text] ++ flags ++ [job.artifact.text] ++ c.args

end Assay.Klee
