import Assay.Proofs.Encoding
import Assay.Proofs.Json
import Assay.Suite.Decoding
import Assay.Suite.Encoding
import Mathlib.Data.List.Nodup

/-!
# Suites are read back from their JSON

`ofJson?_toJson`: the decoder inverts the encoder on every suite, field by field. For the text
between them a suite has to be `Recordable`: the statistics of an outcome have different names, and
no number has more digits than a reader takes. Then `Recordable.parse_render` reads its text.
-/

namespace Assay

/-! ## Fields -/

theorem mapM_map_eq_some {α β : Type} {f : β → Option α} {g : α → β} {l : List α}
    (h : ∀ a ∈ l, f (g a) = some a) : (l.map g).mapM f = some l := by
  refine mapM_eq_some ?_
  rw [List.map_map]
  exact List.map_congr_left h

theorem Verdict.ofName?_name (v : Verdict) : Verdict.ofName? v.name = some v := by
  cases v <;> rfl

namespace Suite

theorem optionalText?_ofOption (s : Option String) :
    optionalText? (Json.ofOption s) = some s := by
  cases s <;> rfl

theorem stats?_integers (stats : List (String × Int)) :
    stats? (.object (stats.map fun (k, n) => (k, .integer n))) = some stats :=
  mapM_map_eq_some fun _ _ => rfl

theorem texts?_texts (ts : List String) : texts? (.array (ts.map .text)) = some ts :=
  mapM_map_eq_some fun _ _ => rfl

/-! ## Records -/

theorem outcome?_toJson (o : Outcome) : outcome? o.toJson = some o := by
  show (do
    let displayName ← some o.displayName
    let entrySymbol ← some o.entrySymbol
    let verdict ← Verdict.ofName? o.verdict.name
    let expectation ← optionalText? (Json.ofOption o.expectation)
    let error ← optionalText? (Json.ofOption o.error)
    let stats ← stats? (.object (o.stats.map fun (k, n) => (k, .integer n)))
    let durationMs ← some o.durationMs
    let counterexamples ← texts? (.array (o.counterexamples.map .text))
    return (⟨displayName, entrySymbol, verdict, expectation, error, stats, durationMs,
      counterexamples⟩ : Outcome)) = some o
  rw [Verdict.ofName?_name, optionalText?_ofOption, optionalText?_ofOption, stats?_integers,
    texts?_texts]
  rfl

/-- **Decoding inverts encoding.** -/
theorem ofJson?_toJson (s : Suite) : ofJson? s.toJson = some s := by
  have houtcomes : outcomes? (.array (s.outcomes.map Outcome.toJson)) = some s.outcomes :=
    mapM_map_eq_some fun o _ => outcome?_toJson o
  show (do
    let backend ← some s.backend
    let total ← some s.total
    let passed ← some s.passed
    let failed ← some s.failed
    let verdict ← Verdict.ofName? s.verdict.name
    let outcomes ← outcomes? (.array (s.outcomes.map Outcome.toJson))
    return (⟨backend, total, passed, failed, verdict, outcomes⟩ : Suite)) = some s
  rw [Verdict.ofName?_name, houtcomes]
  rfl

end Suite

/-! ## What can be recorded -/

/-- The statistics have different names, and all numbers can be told. -/
structure Outcome.Recordable (o : Outcome) : Prop where
  names : (o.stats.map Prod.fst).Nodup
  stats : ∀ s ∈ o.stats, Number.IsTellable s.2
  durationMs : Number.IsTellable o.durationMs

structure Suite.Recordable (s : Suite) : Prop where
  total : Number.IsTellable s.total
  passed : Number.IsTellable s.passed
  failed : Number.IsTellable s.failed
  outcomes : ∀ o ∈ s.outcomes, o.Recordable

open Json (Plain)

theorem plain_ofOption (depth : Nat) (s : Option String) : Plain depth (Json.ofOption s) := by
  cases s with
  | none => exact .null
  | some s => exact .text s

/-- Named numbers, as the statistics of an outcome are. -/
theorem plain_integers {depth : Nat} {stats : List (String × Int)}
    (hnames : (stats.map Prod.fst).Nodup) (h : ∀ s ∈ stats, Number.IsTellable s.2) :
    Plain (depth + 1) (.object (stats.map fun (k, n) => (.whole k, .integer n))) := by
  refine .object ?_ ?_ ?_
  · have hinj : Function.Injective Json.Literal.whole := fun _ _ h => Json.Literal.whole.inj h
    have hwhole := List.Nodup.map hinj hnames
    rw [List.map_map] at hwhole ⊢
    exact hwhole
  · intro m hm
    obtain ⟨s, -, rfl⟩ := List.mem_map.mp hm
    exact ⟨s.1, rfl⟩
  · intro m hm
    obtain ⟨s, hs, rfl⟩ := List.mem_map.mp hm
    exact .integer (h s hs)

theorem plain_texts (depth : Nat) (ts : List String) :
    Plain (depth + 1) (.array (ts.map .text)) := by
  refine .array fun v hv => ?_
  obtain ⟨s, -, rfl⟩ := List.mem_map.mp hv
  exact .text s

theorem Outcome.Recordable.plain {o : Outcome} (ho : o.Recordable) (depth : Nat) :
    Plain (depth + 2) o.toJson := by
  refine .object ?_ ?_ ?_
  · show List.Nodup (α := Json.Literal) [.whole "display_name", .whole "entry_symbol",
      .whole "verdict", .whole "expectation", .whole "error", .whole "stats",
      .whole "duration_ms", .whole "counterexamples"]
    decide
  · simp only [List.forall_mem_cons]
    exact ⟨⟨_, rfl⟩, ⟨_, rfl⟩, ⟨_, rfl⟩, ⟨_, rfl⟩, ⟨_, rfl⟩, ⟨_, rfl⟩, ⟨_, rfl⟩, ⟨_, rfl⟩,
      fun _ h => nomatch h⟩
  · simp only [List.forall_mem_cons]
    exact ⟨.text _, .text _, .text _, plain_ofOption _ _, plain_ofOption _ _,
      plain_integers ho.names ho.stats, .integer ho.durationMs, plain_texts _ _,
      fun _ h => nomatch h⟩

/-- How deep the values of a suite's record are nested. -/
def Suite.depth : Nat := 4

theorem Suite.Recordable.plain {s : Suite} (hs : s.Recordable) (depth : Nat) :
    Plain (depth + Suite.depth) s.toJson := by
  refine .object ?_ ?_ ?_
  · show List.Nodup (α := Json.Literal) [.whole "backend", .whole "total", .whole "passed",
      .whole "failed", .whole "verdict", .whole "outcomes"]
    decide
  · simp only [List.forall_mem_cons]
    exact ⟨⟨_, rfl⟩, ⟨_, rfl⟩, ⟨_, rfl⟩, ⟨_, rfl⟩, ⟨_, rfl⟩, ⟨_, rfl⟩, fun _ h => nomatch h⟩
  · have houtcomes : Plain (depth + 3) (.array (s.outcomes.map Outcome.toJson)) := by
      refine .array fun v hv => ?_
      obtain ⟨o, ho, rfl⟩ := List.mem_map.mp hv
      exact (hs.outcomes o ho).plain depth
    simp only [List.forall_mem_cons]
    exact ⟨.text _, .integer hs.total, .integer hs.passed, .integer hs.failed, .text _, houtcomes,
      fun _ h => nomatch h⟩

/-- **The text of a suite** is read as the suite. -/
theorem Suite.Recordable.parse_render {s : Suite} (hs : s.Recordable) {depth : Nat}
    (hd : Suite.depth ≤ depth) : Json.parse s.toJson.render depth = .ok s.toJson :=
  Json.parse_render (Nat.sub_add_cancel hd ▸ hs.plain (depth - Suite.depth))

end Assay
