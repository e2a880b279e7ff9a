import Assay.Tool.Basic

/-!
# SMACK

A verifier on top of Boogie. Both streams carry markers, verdicts and lines to show, the error
stream first.
-/

namespace Assay.Smack

def rules : List Rule :=
  [ ⟨"expect-marker", .isMarker, .noSignal⟩,
    ⟨"expected-panic", .expectedPanic, .verdict .verified⟩,
    ⟨"no-errors", .startsWith "SMACK found no errors", .completion⟩,
    ⟨"found-error", .startsWith "SMACK found an error", .verdict .error⟩,
    ⟨"timed-out", .startsWith "SMACK timed out", .verdict .timeout⟩ ]

def ranks : List RankRule :=
  [ ⟨"expect-marker", .isMarker, rankWarning⟩,
    ⟨"expected-panic", .expectedPanic, rankNoise⟩,
    ⟨"result", .startsWith "SMACK found", rankBrief⟩,
    -- whatever else it says has not been looked at yet, so it is shown
    ⟨"smack-other", .startsWith "SMACK", rankUncategorized⟩ ]

def tool : Tool where
  name := "SMACK"
  executable := "smack"
  outputRoot := "smackout"
  features := ["verifier-smack"]
  markerStreams := [.stderr, .stdout]
  verdictStreams := [.stderr, .stdout]
  echoStreams := [.stderr, .stdout]
  latin1 := false
  wantsOutputDir := true
  rules := rules
  ranks := ranks

def arguments (job : Job) (flags : List String) : List String :=
  ["--verifier=boogie"] ++ flags ++ ["--entry-points=" ++ job.entrySymbol, job.artifact.text]

end Assay.Smack
