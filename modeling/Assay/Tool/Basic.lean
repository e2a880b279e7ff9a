import Assay.Capture
import Assay.Config
import Assay.Rule

/-!
# Tools

A verification tool as data: what it is called, which program it is, where it keeps its results,
which streams say what, and the two tables that read its output. `arguments` is what the program is
called with unless the user replaces it.
-/

namespace Assay

structure Tool where
  name : String
  executable : String
  /-- The directory for results, in the project's directory. -/
  outputRoot : String
  features : List String
  /-- The streams that carry markers, and those that are classified and shown, in order. -/
  markerStreams : List Stream
  verdictStreams : List Stream
  echoStreams : List Stream
  /-- Whether the output is read as Latin-1. -/
  latin1 : Bool
  /-- Whether the directory for results has to exist when the tool starts. -/
  wantsOutputDir : Bool
  rules : List Rule
  ranks : List RankRule

end Assay
