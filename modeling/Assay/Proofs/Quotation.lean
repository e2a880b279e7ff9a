import Assay.Proofs.Markers

/-!
# Messages between quotes

A program reports its panic as a message between two quotes and a place behind them. Whether the
report is the panic that was announced is settled by the part of the message that can be read back:
all of it if there are no quotes in it, and otherwise a piece between two quotes, or nothing
(`meets_report`, `meets_report_iff`). KLEE's table verifies a run that consists of an announcement
and a report exactly if the one is found in the other, in whatever order they come,
`classify_report`.
-/

namespace Assay

open Assay.Text (singleQuote isLineBreak)

namespace Panic

/-- A place in the source. -/
structure Place where
  path : String
  line : Nat
  column : Nat

def Place.text (p : Place) : String :=
  p.path ++ ":" ++ toString p.line ++ ":" ++ toString p.column

variable {m s : String} {p : Place}

/-- What holds of colons and digits, and of the path, holds of the place. -/
theorem Place.forall_mem {P : Char → Prop} (hpath : ∀ c ∈ p.path.toList, P c) (hcolon : P ':')
    (hdigit : ∀ c : Char, c.isDigit = true → P c) : ∀ c ∈ p.text.toList, P c := by
  have hnumber : ∀ n : Nat, ∀ c ∈ (toString n).toList, P c := by
    intro n c hc
    rw [show toString n = n.repr from rfl, Nat.toList_repr] at hc
    exact hdigit c (Nat.isDigit_of_mem_toDigits (by decide) (by decide) hc)
  have hmark : ∀ c ∈ ":".toList, P c := by
    intro c hc
    rw [List.mem_singleton.mp hc]
    exact hcolon
  intro c hc
  simp only [text, String.toList_append, List.mem_append] at hc
  rcases hc with (((hc | hc) | hc) | hc) | hc
  · exact hpath c hc
  · exact hmark c hc
  · exact hnumber p.line c hc
  · exact hmark c hc
  · exact hnumber p.column c hc

theorem Place.singleQuote_not_mem (hp : singleQuote ∉ p.path.toList) :
    singleQuote ∉ p.text.toList := by
  have hne : ∀ c ∈ p.text.toList, c ≠ singleQuote := by
    refine Place.forall_mem (fun c hc => ?_) (by decide) fun c hc => ?_
    · rintro rfl
      exact hp hc
    · rintro rfl
      exact absurd hc (by decide)
  exact fun h => hne _ h rfl

theorem Place.oneLine (hp : Text.OneLine p.path) : Text.OneLine p.text := by
  refine Place.forall_mem hp (by decide) fun c hc => ?_
  rw [Bool.eq_false_iff]
  intro hb
  simp only [Char.isDigit, Bool.and_eq_true, decide_eq_true_eq] at hc
  simp only [isLineBreak, Bool.or_eq_true, Bool.and_eq_true, decide_eq_true_eq, beq_iff_eq] at hb
  have hlow : 48 ≤ c.toNat := hc.1
  have hhigh : c.toNat ≤ 57 := hc.2
  omega

/-! ## What is read of a report -/

/-- Nothing is taken for a part of the message that is none. -/
theorem meets_report (hp : singleQuote ∉ p.path.toList)
    (h : meets (report m p.text) (some s) = true) :
    s.toList <:+: m.toList ∧ singleQuote ∉ s.toList := by
  obtain ⟨text, r, htext, hquotes, hs⟩ := meets_iff.mp h
  cases htext
  obtain ⟨hr, hquote⟩ := infix_of_quotes_report (p.singleQuote_not_mem hp) hquotes
  exact ⟨hs.trans hr, fun hmem => hquote (hs.subset hmem)⟩

/-- **A report is read as it was meant exactly if there is no quote in its message.** -/
theorem meets_report_iff (hp : singleQuote ∉ p.path.toList) :
    (∀ s : String, meets (report m p.text) (some s) = true ↔ s.toList <:+: m.toList) ↔
      singleQuote ∉ m.toList := by
  constructor
  · intro h
    exact (meets_report hp ((h m).mpr List.infix_rfl)).2
  · intro hm s
    refine ⟨fun h => (meets_report hp h).1, fun hs => ?_⟩
    exact meets_iff.mpr ⟨s, m, rfl, quotes_report hm p.text, hs⟩

end Panic

namespace Klee

open Checker (sampleKlee)
open Marker (Announces)
open Panic (Place oneLine_report report meets)

variable {k : Checker} {c : Capture} {marker m s place : String}

/-! ## A run that announces its panic -/

theorem report_eq (m place : String) :
    report m place = Panic.mainThread ++ (Panic.opening ++ m ++ "', " ++ place) := by
  simp only [report, String.append_assoc]

theorem verdictOfLine?_report (ctx : LineContext) {text : String} (hctx : ctx.expect = some text)
    (m place : String) :
    Classification.verdictOfLine? rules ctx (report m place) = some .verified ↔
      meets (report m place) (some text) = true := by
  obtain ⟨ha, hm⟩ := mainThread_append (Panic.opening ++ m ++ "', " ++ place)
  rw [← report_eq] at ha hm
  rw [verdictOfLine?_eq_verified_iff, passes_iff, hctx]
  simp [ha, hm]

/-- What the table reads off an announcement and one other line, whichever comes first. -/
theorem reading_announced (hs : Announces marker s) {line : String}
    (hline : Marker.isMarker line = false)
    (hc : Text.linesOf c.stderr = [marker, line] ∨ Text.linesOf c.stderr = [line, marker])
    (name : String) :
    Backend.klee.tool.reading c name =
      ((Classification.verdictOfLine? rules ⟨some s, name⟩ line).getD .unknown, some s) := by
  have hmarker : Marker.isMarker marker = true := Marker.isMarker_of_announces hs
  have hlines : c.lines [.stderr] = Text.linesOf c.stderr := by
    rw [Capture.lines_cons, Capture.lines_nil, List.append_nil]
    rfl
  have hmarkers : Marker.markers (c.lines [.stderr]) = [marker] := by
    rw [hlines]
    rcases hc with hc | hc <;> simp [hc, Marker.markers, hmarker, hline]
  have hothers : Marker.others (c.lines [.stderr]) = [line] := by
    rw [hlines]
    rcases hc with hc | hc <;> simp [hc, Marker.others, hmarker, hline]
  have hexpect : Marker.expectation (c.lines [.stderr]) = some s := by
    rw [← Marker.expectation_markers, hmarkers, Marker.expectation_singleton hs]
  have hverdict : Classification.verdict? rules ⟨some s, name⟩ (c.lines [.stderr]) =
      Classification.verdictOfLine? rules ⟨some s, name⟩ line := by
    have hrules : ∀ l, Marker.isMarker l = true →
        Classification.verdictOfLine? rules ⟨some s, name⟩ l = none := fun l hl =>
      Backend.IsVerifier.verdictOfLine?_marker (b := .klee)
        (Backend.isVerifier_iff.mpr (.inl rfl)) _ hl
    rw [← Classification.verdict?_others hrules, hothers]
    unfold Classification.verdict?
    rw [List.findSome?_singleton]
  rw [← hverdict, ← hexpect]
  rfl

/-- **The verdict on an announcement and a report**, whichever comes first, is `verified` exactly if
the report is read as the panic that was announced. -/
theorem classify_report (hk : k.backend = .klee) (hs : Announces marker s)
    (hc : Text.linesOf c.stderr = [marker, report m place] ∨
      Text.linesOf c.stderr = [report m place, marker]) (name : String) :
    ∃ v, (∀ h w, ((k.classify c name).run h w).1 = .ok (v, some s)) ∧
      (v = .verified ↔ meets (report m place) (some s) = true) := by
  have hv : k.backend.IsVerifier := Backend.isVerifier_iff.mpr (.inl hk)
  have hreport : Marker.isMarker (report m place) = false := by
    rw [Bool.eq_false_iff, report_eq]
    exact fun h => (mainThread_append _).2 (isMarker_iff.mp h)
  have hreading := reading_announced hs hreport hc name
  rw [← hk] at hreading
  refine ⟨(Classification.verdictOfLine? rules ⟨some s, name⟩ (report m place)).getD .unknown,
    fun h w => ?_, ?_⟩
  · exact (Action.Returns.value (Checker.classify_returns hv c name) h w).trans
      (congrArg Except.ok hreading)
  · rw [← verdictOfLine?_report ⟨some s, name⟩ rfl]
    cases Classification.verdictOfLine? rules ⟨some s, name⟩ (report m place) with
    | none => simp
    | some v => simp

/-- **A panic is recognised by a part of its message.** Nothing but a part of the message is found
in a report, and nothing with a quote in it. Every part of the message is found exactly if the
message has no quote. KLEE's verdict on an announcement and a report is `verified` exactly if what
was announced is found, and so for every part of a message without quotes, whichever of the two
lines comes first. -/
theorem report_recognised {p : Place} (hp : singleQuote ∉ p.path.toList) (m : String) :
    (∀ s : String, meets (report m p.text) (some s) = true →
      s.toList <:+: m.toList ∧ singleQuote ∉ s.toList) ∧
    ((∀ s : String, meets (report m p.text) (some s) = true ↔ s.toList <:+: m.toList) ↔
      singleQuote ∉ m.toList) ∧
    ∀ (k : Checker) (c : Capture) (marker s name : String), k.backend = .klee →
      Announces marker s →
        (Text.linesOf c.stderr = [marker, report m p.text] ∨
            Text.linesOf c.stderr = [report m p.text, marker] →
          ∃ v, (∀ h w, ((k.classify c name).run h w).1 = .ok (v, some s)) ∧
            (v = .verified ↔ meets (report m p.text) (some s) = true)) ∧
        (singleQuote ∉ m.toList → s.toList <:+: m.toList → Text.OneLine m → Text.OneLine p.path →
          c.stderr = marker ++ "\n" ++ report m p.text ++ "\n" ∨
            c.stderr = report m p.text ++ "\n" ++ marker ++ "\n" →
          ∀ h w, ((k.classify c name).run h w).1 = .ok (.verified, some s)) := by
  refine ⟨fun s => Panic.meets_report hp, Panic.meets_report_iff hp,
    fun k c marker s name hk hs => ⟨fun hc => classify_report hk hs hc name, ?_⟩⟩
  intro hm hpart hline hpath htext
  have hmarker : Text.OneLine marker := Marker.oneLine_of_announces hs (hline.mono hpart)
  have hreport : Text.OneLine (report m p.text) := oneLine_report hline (p.oneLine hpath)
  have hc : Text.linesOf c.stderr = [marker, report m p.text] ∨
      Text.linesOf c.stderr = [report m p.text, marker] := by
    rcases htext with htext | htext
    · left
      rw [htext, String.append_assoc, Text.linesOf_append hmarker, Text.linesOf_line hreport]
    · right
      rw [htext, String.append_assoc, Text.linesOf_append hreport, Text.linesOf_line hmarker]
  obtain ⟨v, hv, hiff⟩ := classify_report hk hs hc name
  rw [hiff.mpr (((Panic.meets_report_iff hp).mpr hm s).mpr hpart)] at hv
  exact hv

def panicPlace : Place :=
  ⟨"src/lib.rs", 3, 5⟩

/-- A panic that is announced after it has happened. -/
theorem report_recognised_belated :
    singleQuote ∉ panicPlace.path.toList ∧
      ∀ h w, ((sampleKlee.classify ⟨1, "", report "grüß Gott" panicPlace.text ++ "\n" ++
        Marker.announcement "grüß" ++ "\n", false⟩ "t").run h w).1 =
          .ok (.verified, some "grüß") := by
  have hp : singleQuote ∉ panicPlace.path.toList := by decide
  have hm : singleQuote ∉ "grüß Gott".toList := by decide
  have hpart : "grüß".toList <:+: "grüß Gott".toList := ⟨[], " Gott".toList, by decide⟩
  have hline : Text.OneLine "grüß Gott" := List.all_iff_forall_prop.mp (by decide)
  have hpath : Text.OneLine panicPlace.path := List.all_iff_forall_prop.mp (by decide)
  exact ⟨hp, ((report_recognised hp "grüß Gott").2.2 sampleKlee _ _ "grüß" "t" rfl
    (.inr rfl)).2 hm hpart hline hpath (.inr rfl)⟩

/-- An apostrophe ends the message too early: neither what was announced is found nor, if any panic
was, a panic at all. -/
theorem apostrophe_missed :
    singleQuote ∉ panicPlace.path.toList ∧ "over".toList <:+: "it's over".toList ∧
      meets (report "it's over" panicPlace.text) (some "over") = false ∧
      meets (report "it's over" panicPlace.text) (some "") = false := by
  have hpart : "over".toList <:+: "it's over".toList := ⟨"it's ".toList, [], by decide⟩
  exact ⟨by decide, hpart, by decide +kernel, by decide +kernel⟩

end Klee

end Assay
