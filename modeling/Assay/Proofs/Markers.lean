import Assay.Proofs.Klee
import Assay.Proofs.Recognition
import Assay.Proofs.Streams
import Mathlib.Data.List.Basic

/-!
# Markers act through the expectation

A marker tells what its run expects, and nothing else. No table takes a marker for a signal,
whatever else is written in it (`Backend.IsVerifier.verdictOfLine?_marker`), and no line but a
marker announces anything (`Marker.parse_eq_none`). So the lines of a capture are read as two lists,
the markers and the others, and where the markers stand among the others does not matter. This is
`markers_act_through_expectation`.
-/

namespace Assay

/-! ## Markers and other lines -/

namespace Marker

variable {line : String} {lines lines' : List String}

/-- The markers among lines, in order. -/
def markers (lines : List String) : List String :=
  lines.filter isMarker

/-- The lines that are no markers, in order. -/
def others (lines : List String) : List String :=
  lines.filter fun line => !isMarker line

theorem markers_flatMap {ι : Type} (f : ι → List String) (l : List ι) :
    markers (l.flatMap f) = l.flatMap fun i => markers (f i) :=
  List.filter_flatMap

theorem others_flatMap {ι : Type} (f : ι → List String) (l : List ι) :
    others (l.flatMap f) = l.flatMap fun i => others (f i) :=
  List.filter_flatMap

/-- Whatever announces an expectation is a marker. -/
theorem parse_eq_none (hm : isMarker line = false) : parse line = none := by
  cases hp : parse line with
  | none => rfl
  | some text =>
    have hmarker : isMarker line = true := Text.startsWith_iff.mpr (isMarker_of_parse hp)
    rw [hm] at hmarker
    cases hmarker

/-- **The expectation is that of the markers.** -/
theorem expectation_markers (lines : List String) :
    expectation (markers lines) = expectation lines := by
  have hlines : (markers lines).filterMap parse = lines.filterMap parse := by
    rw [markers, List.filterMap_filter]
    refine List.filterMap_congr fun line _ => ?_
    cases hm : isMarker line with
    | true => rw [if_pos rfl]
    | false => rw [if_neg Bool.false_ne_true, parse_eq_none hm]
  rw [expectation, hlines, expectation]

theorem expectation_congr (hm : markers lines = markers lines') :
    expectation lines = expectation lines' := by
  rw [← expectation_markers, hm, expectation_markers]

end Marker

namespace Classification

variable {rules : List Rule} {ctx : LineContext} {lines lines' : List String}

/-- **The verdict is that of the other lines**, if the table passes over markers. -/
theorem verdict?_others
    (hrules : ∀ line, Marker.isMarker line = true → verdictOfLine? rules ctx line = none)
    (lines : List String) :
    verdict? rules ctx (Marker.others lines) = verdict? rules ctx lines := by
  unfold verdict? Marker.others
  rw [← List.head?_filterMap, ← List.head?_filterMap, List.filterMap_filter]
  refine congrArg List.head? (List.filterMap_congr fun line _ => ?_)
  cases hm : Marker.isMarker line with
  | true => exact (hrules line hm).symm
  | false => rfl

theorem verdict?_congr
    (hrules : ∀ line, Marker.isMarker line = true → verdictOfLine? rules ctx line = none)
    (ho : Marker.others lines = Marker.others lines') :
    verdict? rules ctx lines = verdict? rules ctx lines' := by
  rw [← verdict?_others hrules, ho, verdict?_others hrules]

end Classification

/-! ## The tables -/

namespace Klee

/-- An alarm and a marker begin differently. -/
theorem not_alarming_of_isMarker {line : String} (hm : Marker.isMarker line = true) :
    ¬ Alarming line := by
  have htag := Text.startsWith_iff.mp hm
  rintro ⟨text, htext, hp⟩
  simp only [alarms, List.mem_cons, List.not_mem_nil, or_false] at htext
  rcases htext with rfl | rfl | rfl
  · exact Reporter.not_prefix_of_prefix (by decide) (by decide) hp htag
  · exact Reporter.not_prefix_of_prefix (by decide) (by decide) hp htag
  · exact Reporter.not_prefix_of_prefix (by decide) (by decide) hp htag

end Klee

/-- **No table takes a marker for a signal**, whatever text is in it. -/
theorem Backend.IsVerifier.verdictOfLine?_marker {b : Backend} (hb : b.IsVerifier)
    (ctx : LineContext) {line : String} (hm : Marker.isMarker line = true) :
    Classification.verdictOfLine? b.tool.rules ctx line = none := by
  rcases isVerifier_iff.mp hb with rfl | rfl | rfl
  · exact (Klee.verdictOfLine?_of_not_alarming (Klee.not_alarming_of_isMarker hm)).trans
      (if_pos hm)
  · exact (Reporter.verdictOfLine?_reporter .seahorn ctx line).trans (if_pos hm)
  · exact (Reporter.verdictOfLine?_reporter .smack ctx line).trans (if_pos hm)

/-! ## Two captures -/

/-- On each stream the captures have the same markers and the same other lines, in the same order.
Only where the markers stand among the others may differ. -/
structure Capture.MarkersMoved (c c' : Capture) : Prop where
  markers : ∀ s, Marker.markers (Text.linesOf (c.text s)) =
    Marker.markers (Text.linesOf (c'.text s))
  others : ∀ s, Marker.others (Text.linesOf (c.text s)) = Marker.others (Text.linesOf (c'.text s))

namespace Capture.MarkersMoved

variable {c c' : Capture}

theorem markers_lines (hc : c.MarkersMoved c') (streams : List Stream) :
    Marker.markers (c.lines streams) = Marker.markers (c'.lines streams) := by
  rw [lines, Marker.markers_flatMap, lines, Marker.markers_flatMap]
  exact List.flatMap_congr fun s _ => hc.markers s

theorem others_lines (hc : c.MarkersMoved c') (streams : List Stream) :
    Marker.others (c.lines streams) = Marker.others (c'.lines streams) := by
  rw [lines, Marker.others_flatMap, lines, Marker.others_flatMap]
  exact List.flatMap_congr fun s _ => hc.others s

/-- The tables read the same off both captures. -/
theorem reading (hc : c.MarkersMoved c') {b : Backend} (hb : b.IsVerifier) (name : String) :
    b.tool.reading c name = b.tool.reading c' name := by
  have hexpect : b.tool.expectation c = b.tool.expectation c' :=
    Marker.expectation_congr (hc.markers_lines _)
  unfold Tool.reading
  rw [hexpect, Classification.verdict?_congr (fun _ hm => hb.verdictOfLine?_marker _ hm)
    (hc.others_lines _)]

end Capture.MarkersMoved

namespace Checker

variable {k : Checker}

/-- **Markers act through the expectation.** For KLEE, SeaHorn and SMACK, two captures that differ
in nothing but where the markers stand among the other lines are classified alike: with the same
verdict and the same expectation. For whatever a run expects, the verdict on lines is the one
without the markers, and the expectation is the one without the other lines. -/
theorem markers_act_through_expectation (hk : k.backend.IsVerifier) (name : String) :
    (∀ c c' : Capture, c.MarkersMoved c' →
      ∃ p, (∀ h w, ((k.classify c name).run h w).1 = .ok p) ∧
        ∀ h w, ((k.classify c' name).run h w).1 = .ok p) ∧
      ∀ lines : List String,
        (∀ expect, ∃ v,
          (∀ h w, ((Classification.classify k.backend.tool.rules expect name
            (Marker.others lines)).run h w).1 = .ok v) ∧
          ∀ h w, ((Classification.classify k.backend.tool.rules expect name lines).run h w).1 =
            .ok v) ∧
        ∃ expect,
          (∀ h w, ((Marker.extract (Marker.markers lines)).run h w).1 = .ok expect) ∧
          ∀ h w, ((Marker.extract lines).run h w).1 = .ok expect := by
  refine ⟨fun c c' hc => ?_, fun lines => ⟨fun expect => ?_, ?_⟩⟩
  · refine ⟨k.backend.tool.reading c name, fun h w => ?_, fun h w => ?_⟩
    · exact Action.Returns.value (classify_returns hk c name) h w
    · rw [hc.reading hk]
      exact Action.Returns.value (classify_returns hk c' name) h w
  · have hothers : Classification.verdict? k.backend.tool.rules ⟨expect, name⟩
        (Marker.others lines) = Classification.verdict? k.backend.tool.rules ⟨expect, name⟩ lines :=
      Classification.verdict?_others (fun _ hm => hk.verdictOfLine?_marker _ hm) lines
    refine ⟨_, fun h w => ?_,
      Action.Returns.value (Classification.classify_returns _ expect name lines)⟩
    rw [← hothers]
    exact Action.Returns.value
      (Classification.classify_returns _ expect name (Marker.others lines)) h w
  · refine ⟨_, fun h w => ?_, Action.Returns.value (Marker.extract_returns lines)⟩
    rw [← Marker.expectation_markers]
    exact Action.Returns.value (Marker.extract_returns (Marker.markers lines)) h w

/-- KLEE's error stream with a panic after its announcement. -/
def announcedCapture : Capture :=
  ⟨0, "", "VERIFIER_EXPECT: should_panic\na panicked at 'b', c\n", false⟩

/-- The same lines, with the panic first. -/
def belatedCapture : Capture :=
  ⟨0, "", "a panicked at 'b', c\nVERIFIER_EXPECT: should_panic\n", false⟩

/-- A panic can be announced after it has happened. -/
theorem markers_act_through_expectation_belated :
    sampleKlee.backend.IsVerifier ∧ announcedCapture.MarkersMoved belatedCapture ∧
      ∃ p, (∀ h w, ((sampleKlee.classify announcedCapture "t").run h w).1 = .ok p) ∧
        ∀ h w, ((sampleKlee.classify belatedCapture "t").run h w).1 = .ok p := by
  have hmoved : announcedCapture.MarkersMoved belatedCapture := by
    refine ⟨fun s => ?_, fun s => ?_⟩
    · cases s with
      | stdout => rfl
      | stderr => decide +kernel
    · cases s with
      | stdout => rfl
      | stderr => decide +kernel
  exact ⟨sampleKlee_isVerifier, hmoved,
    (markers_act_through_expectation sampleKlee_isVerifier "t").1 _ _ hmoved⟩

end Checker

end Assay
