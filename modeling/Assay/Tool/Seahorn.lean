import Assay.Tool.Basic

/-!
# SeaHorn

A bounded model checker. Its answer is a line `sat` (a violation can be reached) or `unsat` (none
can), on either stream; markers and panic messages are on the error stream. It needs a directory of
common files, and supports neither program arguments nor replay.
-/

namespace Assay.Seahorn

def rules : List Rule :=
  [ ⟨"expect-marker", .isMarker, .noSignal⟩,
    ⟨"expected-panic", .expectedPanic, .verdict .verified⟩,
    ⟨"sat", .equals "sat", .verdict .error⟩,
    ⟨"unsat", .equals "unsat", .completion⟩ ]

def ranks : List RankRule :=
  [ ⟨"expect-marker", .isMarker, rankWarning⟩,
    ⟨"sat", .equals "sat", rankBrief⟩,
    ⟨"known-warning",
      .anyOf
        [ .startsWith "Warning: Externalizing function:",
          .startsWith "Warning: not lowering an initializer for a global struct:",
          .allOf
            [ .startsWith "Warning: found",
              .endsWith "possible reads of undefined values" ] ],
      rankWarning⟩,
    ⟨"expected-panic", .expectedPanic, rankNoise⟩,
    ⟨"unsat", .equals "unsat", rankNoise⟩,
    -- whatever else it warns about has not been looked at yet, so it is shown
    ⟨"warning-other", .startsWith "Warning:", rankUncategorized⟩ ]

def tool : Tool where
  name := "SeaHorn"
  executable := "sea"
  outputRoot := "seaout"
  features := ["verifier-seahorn"]
  markerStreams := [.stderr]
  verdictStreams := [.stderr, .stdout]
  echoStreams := [.stderr]
  latin1 := false
  wantsOutputDir := true
  rules := rules
  ranks := ranks

/-- The directory of common files, if one is set. -/
def commonDir? (c : Config) : Option String :=
  c.commonDir.filter fun s => !s.isEmpty

def arguments (common : String) (job : Job) (output : Path) (flags : List String) : List String :=
  ["yama", "-y", common ++ "/seahorn/sea_base.yaml", "bpf", "--temp-dir=" ++ output.text,
    "--entry=" ++ job.entrySymbol] ++ flags ++ [job.artifact.text]

def validate (c : Config) : Except SetupFault Unit :=
  if !c.args.isEmpty then .error .argumentsUnsupported
  else if c.replay ≠ 0 then .error .replayUnsupported
  else .ok ()

end Assay.Seahorn
