import Assay.Json.Printer
import Assay.Outcome

/-!
# Suites as JSON

Every field of a suite and of its outcomes is written, in a fixed order, also those that are absent
(as null) or empty.
-/

namespace Assay

def Json.ofOption (s : Option String) : Json :=
  match s with
  | none => .null
  | some s => .text s

def Outcome.toJson (o : Outcome) : Json :=
  .object
    [ ("display_name", .text o.displayName),
      ("entry_symbol", .text o.entrySymbol),
      ("verdict", .text o.verdict.name),
      ("expectation", Json.ofOption o.expectation),
      ("error", Json.ofOption o.error),
      ("stats", .object (o.stats.map fun (k, n) => (k, .integer n))),
      ("duration_ms", .integer o.durationMs),
      ("counterexamples", .array (o.counterexamples.map .text)) ]

def Suite.toJson (s : Suite) : Json :=
  .object
    [ ("backend", .text s.backend),
      ("total", .integer s.total),
      ("passed", .integer s.passed),
      ("failed", .integer s.failed),
      ("verdict", .text s.verdict.name),
      ("outcomes", .array (s.outcomes.map Outcome.toJson)) ]

end Assay
