import Assay.Proofs.Announcement
import Assay.Proofs.Klee
import Assay.Proofs.Lines
import Assay.Proofs.Verification
import Mathlib.Data.Bool.AllAny

/-!
# An expected panic in KLEE's output

A program under KLEE announces its panic in one line and panics in the next. It writes UTF-8, and
KLEE's output is read as Latin-1. Both lines are misread in the same way, so the announced text is
still found in the message. What can be lost is the line: the byte 0x85 is read as U+0085, which
ends it.

`expected_panic_verified` is the main result. Without this byte in the message the job is verified.
With it the panic is cut before its quote is closed, and is then a panic like any other; the job
fails unless the announcement was cut as well and one of its pieces looks like the end of the run.
-/

namespace Assay

namespace Panic

open Assay.Text (singleQuote)

/-- A quoted message is between two quotes. -/
theorem two_le_count {cs : List Char} {p : Panic} (h : search? cs = some p) :
    2 ≤ cs.count singleQuote := by
  obtain ⟨pre, rest, rfl, hr, -⟩ := search?_eq_some_iff.mp h
  obtain ⟨-, blank, rest, -, rfl⟩ := opens_of_here? hr
  have hopening : opening.toList.count singleQuote = 1 := by decide
  simp only [List.count_append, List.count_cons_self, hopening]
  omega

theorem meets_of_count {line : String} (h : line.toList.count singleQuote < 2)
    (expect : Expectation) : meets line expect = false := by
  rw [Bool.eq_false_iff]
  intro hm
  obtain ⟨-, m, -, hq, -⟩ := meets_iff.mp hm
  obtain ⟨p, hp, -⟩ := find?_message_iff.mpr hq
  exact Nat.not_lt.mpr (two_le_count hp) h

/-- A panic of the main thread with this message. -/
def mainPanic (m : String) : String :=
  mainThread ++ opening ++ m ++ "', src/lib.rs:1:1"

theorem mainPanic_eq (m : String) : mainPanic m = report m "src/lib.rs:1:1" := by
  have hend : "', src/lib.rs:1:1" = "', " ++ "src/lib.rs:1:1" := by decide +kernel
  rw [mainPanic, report, hend, String.append_assoc, String.append_assoc, String.append_assoc,
    String.append_assoc, String.append_assoc]

theorem quotes_mainPanic {m : String} (hm : singleQuote ∉ m.toList) : Quotes (mainPanic m) m := by
  rw [mainPanic_eq]
  exact quotes_report hm _

theorem oneLine_report {place : String} (hm : Text.OneLine m) (hp : Text.OneLine place) :
    Text.OneLine (report m place) := by
  have hthread : Text.OneLine mainThread := List.all_iff_forall_prop.mp (by decide)
  have hopening : Text.OneLine opening := List.all_iff_forall_prop.mp (by decide)
  have hclosing : Text.OneLine "', " := List.all_iff_forall_prop.mp (by decide)
  exact (((hthread.append hopening).append hm).append hclosing).append hp

theorem toList_mainPanic (m : String) : (mainPanic m).toList =
    mainThread.toList ++ opening.toList ++ m.toList ++ "', src/lib.rs:1:1".toList := by
  simp only [mainPanic, String.toList_append]

end Panic

namespace Klee

open Assay.Text (singleQuote isLineBreak misread nextLine)

variable {s m : String}

/-! ## The two lines -/

/-- Text without control characters, line ends and apostrophes. -/
def Printable (s : String) : Prop :=
  ∀ c ∈ s.toList, 0x20 ≤ c.toNat ∧ ¬ (0x7F ≤ c.toNat ∧ c.toNat ≤ 0x9F) ∧
    c.toNat ≠ 0x2028 ∧ c.toNat ≠ 0x2029 ∧ c ≠ singleQuote

/-- The text is written without the byte that Latin-1 reads as the end of a line. -/
def Unbroken (s : String) : Prop :=
  nextLine ∉ Text.encode s

/-- What the program writes: it announces a panic with the text `s`, and panics with `m`. -/
def announced (s m : String) : Text.Bytes :=
  Text.encode (Marker.announcement s ++ "\n" ++ Panic.mainPanic m ++ "\n")

theorem Printable.oneLine (h : Printable s) : Text.OneLine s := by
  intro c hc
  obtain ⟨hlow, hhigh, hls, hps, -⟩ := h c hc
  rw [Bool.eq_false_iff]
  intro hb
  simp only [Text.isLineBreak, Bool.or_eq_true, Bool.and_eq_true, decide_eq_true_eq,
    beq_iff_eq] at hb
  omega

theorem Printable.mono (h : Printable m) (hs : s.toList <:+: m.toList) : Printable s :=
  fun c hc => h c (hs.subset hc)

theorem Unbroken.mono (h : Unbroken m) (hs : s.toList <:+: m.toList) : Unbroken s :=
  fun hb => h ((Text.infix_encode hs).subset hb)

/-- Misreading brings no apostrophe into a text. -/
theorem Printable.singleQuote (h : Printable s) : singleQuote ∉ (misread s).toList := by
  intro hq
  rcases Text.mem_misread hq with ⟨hmem, -⟩ | ⟨hlow, -⟩
  · exact (h _ hmem).2.2.2.2 rfl
  · exact absurd hlow (by decide)

/-- A misread text is without line breaks if it is unbroken. -/
theorem Printable.misread (h : Printable s) (hu : Unbroken s) : Text.OneLine (misread s) := by
  intro c hc
  rw [Bool.eq_false_iff]
  intro hb
  exact hu ((Text.exists_isLineBreak_misread_iff h.oneLine).mp ⟨c, hc, hb⟩)

theorem misread_announcement (s : String) :
    misread (Marker.announcement s) = Marker.announcement (misread s) := by
  have hopening : misread Marker.opening = Marker.opening :=
    Text.misread_ascii (List.all_iff_forall_prop.mp (by decide))
  have hclosing : misread Marker.closing = Marker.closing :=
    Text.misread_ascii (List.all_iff_forall_prop.mp (by decide))
  unfold Marker.announcement
  rw [Text.misread_append, Text.misread_append, hopening, hclosing]

theorem misread_mainPanic (m : String) :
    misread (Panic.mainPanic m) = Panic.mainPanic (misread m) := by
  have hthread : misread Panic.mainThread = Panic.mainThread :=
    Text.misread_ascii (List.all_iff_forall_prop.mp (by decide))
  have hopening : misread Panic.opening = Panic.opening :=
    Text.misread_ascii (List.all_iff_forall_prop.mp (by decide))
  have hend : misread "', src/lib.rs:1:1" = "', src/lib.rs:1:1" :=
    Text.misread_ascii (List.all_iff_forall_prop.mp (by decide))
  unfold Panic.mainPanic
  rw [Text.misread_append, Text.misread_append, Text.misread_append, hthread, hopening, hend]

/-! ## How they are cut -/

/-- The lines that a complete line is read as. -/
def cut (line : String) : List String :=
  Text.linesOf (line ++ "\n")

theorem cut_of_oneLine {line : String} (h : Text.OneLine line) : cut line = [line] :=
  Text.linesOf_line h

theorem infix_of_mem_cut {line piece : String} (h : piece ∈ cut line) :
    piece.toList <:+: line.toList := by
  obtain ⟨l, hl, rfl⟩ := List.mem_map.mp h
  rw [String.toList_append, show "\n".toList = ['\n'] from rfl] at hl
  rw [String.toList_ofList]
  rcases List.infix_concat_iff.mp (Text.infix_of_mem_lines hl) with hsuffix | hinfix
  · -- the line feed is in no piece
    rcases List.suffix_concat_iff.mp hsuffix with rfl | ⟨t, rfl, -⟩
    · exact List.nil_infix
    · exact absurd (Text.not_isLineBreak_of_mem_lines hl '\n' (by simp)) (by decide)
  · exact hinfix

theorem linesOf_misread_announced (hs : Printable s) :
    Text.linesOf (misread (Marker.announcement s ++ "\n" ++ Panic.mainPanic m ++ "\n")) =
      cut (Marker.announcement (misread s)) ++ cut (Panic.mainPanic (misread m)) := by
  have hr : '\r' ∉ (Marker.announcement (misread s)).toList := by
    rw [Marker.announcement, String.toList_append, String.toList_append, List.mem_append,
      List.mem_append]
    rintro ((h | h) | h)
    · exact absurd h (by decide)
    · rcases Text.mem_misread h with ⟨hmem, -⟩ | ⟨hlow, -⟩
      · exact absurd (hs.oneLine _ hmem) (by decide)
      · exact absurd hlow (by decide)
    · exact absurd h (by decide)
  rw [Text.misread_append, Text.misread_append, Text.misread_append, misread_announcement,
    misread_mainPanic, Text.misread_ascii (s := "\n") (List.all_iff_forall_prop.mp (by decide))]
  unfold cut Text.linesOf
  rw [← List.map_append]
  simp only [String.toList_append, show "\n".toList = ['\n'] from rfl, List.append_assoc,
    List.cons_append, List.nil_append]
  rw [Text.lines_append_newline hr ((Panic.mainPanic (misread m)).toList ++ ['\n'])]

/-- A message that is cut loses the quote that closes it. -/
theorem cut_mainPanic (hm : Printable m) (hu : ¬ Unbroken m) :
    ∃ a rest, cut (Panic.mainPanic (misread m)) =
      (Panic.mainThread ++ Panic.opening ++ a) :: rest ∧ singleQuote ∉ a.toList := by
  obtain ⟨a, c, rest, hsplit, ha, hc⟩ := Text.exists_first_break
    ((Text.exists_isLineBreak_misread_iff hm.oneLine).mpr (not_not.mp hu))
  have hcm : c ∈ (misread m).toList := by
    rw [hsplit]
    simp
  have hr : c ≠ '\r' := by
    rintro rfl
    rcases Text.mem_misread hcm with ⟨hmem, -⟩ | ⟨hlow, -⟩
    · exact absurd (hm.oneLine _ hmem) (by decide)
    · exact absurd hlow (by decide)
  have hstart : ∀ d ∈ Panic.mainThread.toList ++ Panic.opening.toList, isLineBreak d = false :=
    List.all_iff_forall_prop.mp (by decide)
  have hhead : ∀ d ∈ Panic.mainThread.toList ++ Panic.opening.toList ++ a, isLineBreak d = false :=
    fun d hd => (List.mem_append.mp hd).elim (hstart d) (ha d)
  refine ⟨String.ofList a, (Text.lines (rest ++ "', src/lib.rs:1:1".toList ++ ['\n'])).map
    String.ofList, ?_, ?_⟩
  · unfold cut Text.linesOf
    rw [String.toList_append, Panic.toList_mainPanic, hsplit, show "\n".toList = ['\n'] from rfl]
    have htext : Panic.mainThread.toList ++ Panic.opening.toList ++ (a ++ c :: rest) ++
          "', src/lib.rs:1:1".toList ++ ['\n'] =
        (Panic.mainThread.toList ++ Panic.opening.toList ++ a) ++
          c :: (rest ++ "', src/lib.rs:1:1".toList ++ ['\n']) := by
      simp only [List.append_assoc, List.cons_append]
    have hjoin : String.ofList (Panic.mainThread.toList ++ Panic.opening.toList ++ a) =
        Panic.mainThread ++ Panic.opening ++ String.ofList a := by
      rw [← String.toList_inj]
      simp only [String.toList_ofList, String.toList_append]
    rw [htext, Text.lines_append hhead hc hr, List.map_cons, hjoin]
  · rw [String.toList_ofList]
    intro hq
    refine hm.singleQuote ?_
    rw [hsplit]
    exact List.mem_append_left _ hq

/-! ## How they are read -/

variable {ctx : LineContext} {line : String}

/-- All alarms begin with one letter. -/
theorem not_alarming {c : Char} {cs : List Char} (h : line.toList = c :: cs) (hc : c ≠ 'K') :
    ¬ Alarming line := by
  rintro ⟨text, ht, hp⟩
  have hk : ∀ text ∈ alarms, text.toList.head? = some 'K' := by decide
  rw [h] at hp
  cases htext : text.toList with
  | nil =>
    have := hk text ht
    rw [htext] at this
    cases this
  | cons d ds =>
    have := hk text ht
    rw [htext] at this hp
    obtain ⟨rfl, -⟩ := List.cons_prefix_cons.mp hp
    exact hc (Option.some.inj this)

theorem not_isMarker {c : Char} {cs : List Char} (h : line.toList = c :: cs) (hc : c ≠ 'V') :
    ¬ IsMarker line := by
  intro hp
  unfold IsMarker at hp
  rw [h, show Marker.tag.toList = 'V' :: "ERIFIER_EXPECT:".toList by decide] at hp
  exact hc (List.cons_prefix_cons.mp hp).1.symm

theorem verdictOfLine?_announcement (ctx : LineContext) (text : String) :
    Classification.verdictOfLine? rules ctx (Marker.announcement text) = none := by
  have hm : IsMarker (Marker.announcement text) := Marker.tag_prefix_announcement text
  have ha : ¬ Alarming (Marker.announcement text) := by
    obtain ⟨rest, hrest⟩ := hm
    exact not_alarming hrest.symm (by decide)
  rw [verdictOfLine?_eq_none_iff]
  refine ⟨?_, fun h => h.1 hm⟩
  rintro (h | h)
  · exact ha h
  · exact h.1 hm

/-- What begins like a panic of the main thread is neither an alarm nor a marker. -/
theorem mainThread_append (line : String) :
    ¬ Alarming (Panic.mainThread ++ line) ∧ ¬ IsMarker (Panic.mainThread ++ line) := by
  have h : (Panic.mainThread ++ line).toList = 't' :: ("hread 'main'".toList ++ line.toList) := by
    rw [String.toList_append]
    rfl
  exact ⟨not_alarming h (by decide), not_isMarker h (by decide)⟩

theorem passes_mainPanic (hm : singleQuote ∉ m.toList) (hs : s.toList <:+: m.toList) :
    Passes (some s) (Panic.mainPanic m) := by
  have hline : Panic.mainPanic m =
      Panic.mainThread ++ (Panic.opening ++ m ++ "', src/lib.rs:1:1") := by
    simp only [Panic.mainPanic, String.append_assoc]
  obtain ⟨ha, hmarker⟩ := mainThread_append (Panic.opening ++ m ++ "', src/lib.rs:1:1")
  rw [← hline] at ha hmarker
  exact ⟨hmarker, ha, m, Panic.quotes_mainPanic hm, hs⟩

/-- A panic whose message is not closed fails the run. -/
theorem verdictOfLine?_unclosed (ctx : LineContext) {a : String} (ha : singleQuote ∉ a.toList) :
    ∃ v, Classification.verdictOfLine? rules ctx (Panic.mainThread ++ Panic.opening ++ a) =
      some v ∧ v ≠ .verified := by
  rw [String.append_assoc]
  obtain ⟨halarm, hmarker⟩ := mainThread_append (Panic.opening ++ a)
  have hcount : (Panic.opening ++ a).toList.count singleQuote < 2 := by
    have hopening : Panic.opening.toList.count singleQuote = 1 := by decide
    rw [String.toList_append, List.count_append, hopening, List.count_eq_zero_of_not_mem ha]
    decide
  rw [verdictOfLine?_of_not_alarming halarm, if_neg fun h => hmarker (isMarker_iff.mp h),
    Panic.meets_mainThread, Panic.meets_of_count hcount, if_neg Bool.false_ne_true]
  refine verdictOfLine?_of_troubled ctx ⟨"panicked at", by simp [troubles], ?_⟩
  have hopening : "panicked at".toList <:+: Panic.opening.toList :=
    ⟨" ".toList, " '".toList, rfl⟩
  rw [String.toList_append, String.toList_append]
  exact hopening.trans ((List.prefix_append _ a.toList).isInfix.trans
    (List.suffix_append Panic.mainThread.toList _).isInfix)

/-- A piece of an announcement verifies no run unless it looks like its end: it is no panic, for it
holds no apostrophe. -/
theorem done_of_passes {text : String} {expect : Expectation} (hq : singleQuote ∉ text.toList)
    (hmem : line ∈ cut (Marker.announcement text)) (hp : Passes expect line) :
    ¬ IsMarker line ∧ Done (Marker.announcement text) := by
  have hinfix := infix_of_mem_cut hmem
  have hcount : line.toList.count singleQuote < 2 := by
    have hn : singleQuote ∉ line.toList := by
      intro h
      have h := hinfix.subset h
      rw [Marker.announcement, String.toList_append, String.toList_append, List.mem_append,
        List.mem_append] at h
      rcases h with (h | h) | h
      · exact absurd h (by decide)
      · exact hq h
      · exact absurd h (by decide)
    rw [List.count_eq_zero_of_not_mem hn]
    decide
  obtain ⟨hm, -, hmeets | ⟨-, -, hdone⟩⟩ := passes_iff.mp hp
  · rw [Panic.meets_of_count hcount] at hmeets
    cases hmeets
  · exact ⟨hm, hdone.trans hinfix⟩

/-! ## The verdict -/

/-- The lines that the two are read as. -/
def pieces (s m : String) : List String :=
  cut (Marker.announcement (misread s)) ++ cut (Panic.mainPanic (misread m))

theorem cut_announcement (hs : Printable s) (hu : Unbroken s) :
    cut (Marker.announcement (misread s)) = [Marker.announcement (misread s)] :=
  cut_of_oneLine (Marker.oneLine_announcement (hs.misread hu))

theorem cut_mainPanic_of_unbroken (hm : Printable m) (hu : Unbroken m) :
    cut (Panic.mainPanic (misread m)) = [Panic.mainPanic (misread m)] := by
  rw [Panic.mainPanic_eq]
  exact cut_of_oneLine
    (Panic.oneLine_report (hm.misread hu) (List.all_iff_forall_prop.mp (by decide)))

theorem parse_mainPanic (m : String) : Marker.parse (Panic.mainPanic m) = none := by
  cases hp : Marker.parse (Panic.mainPanic m) with
  | none => rfl
  | some text =>
    have hmarker := Marker.isMarker_of_parse hp
    have hline : Panic.mainPanic m =
        Panic.mainThread ++ (Panic.opening ++ m ++ "', src/lib.rs:1:1") := by
      simp only [Panic.mainPanic, String.append_assoc]
    rw [hline] at hmarker
    exact absurd hmarker (mainThread_append _).2

/-- Unbroken text is recognised, as it is misread. -/
theorem verdict_of_unbroken (hm : Printable m) (hu : Unbroken m) (hs : s.toList <:+: m.toList)
    (name : String) :
    Marker.expectation (pieces s m) = some (misread s) ∧
      Classification.verdict? rules ⟨some (misread s), name⟩ (pieces s m) = some .verified := by
  have hpieces : pieces s m =
      [Marker.announcement (misread s), Panic.mainPanic (misread m)] := by
    unfold pieces
    rw [cut_announcement (hm.mono hs) (hu.mono hs), cut_mainPanic_of_unbroken hm hu]
    rfl
  rw [hpieces]
  constructor
  · unfold Marker.expectation
    rw [List.filterMap_cons_some (Marker.parse_announcement _),
      List.filterMap_cons_none (parse_mainPanic _)]
    rfl
  · refine Classification.verdict?_eq_some_iff.mpr ⟨[_], _, [], rfl, fun l hl => ?_, ?_⟩
    · rw [List.mem_singleton.mp hl]
      exact verdictOfLine?_announcement _ _
    · exact verdictOfLine?_eq_verified_iff.mpr
        (passes_mainPanic hm.singleQuote (Text.infix_misread hs))

/-- If a line decides otherwise, one before it has decided. -/
theorem exists_mem_of_verdict? {xs ys : List String} {v v' : Verdict}
    (h : Classification.verdict? rules ctx (xs ++ line :: ys) = some v)
    (hline : Classification.verdictOfLine? rules ctx line = some v') (hne : v' ≠ v) :
    ∃ l ∈ xs, Classification.verdictOfLine? rules ctx l = some v := by
  unfold Classification.verdict? at h
  rw [List.findSome?_append] at h
  cases hxs : xs.findSome? (Classification.verdictOfLine? rules ctx) with
  | none =>
    rw [hxs, Option.none_or, List.findSome?_cons_of_isSome (by rw [hline]; rfl), hline] at h
    exact absurd (Option.some.inj h) hne
  | some u =>
    rw [hxs, Option.some_or] at h
    obtain ⟨l, hl, hu⟩ := List.exists_of_findSome?_eq_some hxs
    exact ⟨l, hl, by rw [hu, h]⟩

/-- A broken message fails the run, unless the announcement is broken too and looks like the end of
a run. -/
theorem verdict_of_broken (hm : Printable m) (hu : ¬ Unbroken m) (hs : s.toList <:+: m.toList)
    (hcase : Unbroken s ∨ ¬ Done (Marker.announcement (misread s))) (ctx : LineContext) :
    Classification.verdict? rules ctx (pieces s m) ≠ some .verified := by
  intro hv
  have hps : Printable s := hm.mono hs
  obtain ⟨a, rest, hcut, ha⟩ := cut_mainPanic hm hu
  obtain ⟨v, hunclosed, hne⟩ := verdictOfLine?_unclosed ctx ha
  rw [pieces, hcut] at hv
  obtain ⟨line, hmem, hline⟩ := exists_mem_of_verdict? hv hunclosed hne
  obtain ⟨hmarker, hdone⟩ :=
    done_of_passes hps.singleQuote hmem (verdictOfLine?_eq_verified_iff.mp hline)
  rcases hcase with hunbroken | hcase
  · rw [cut_announcement hps hunbroken, List.mem_singleton] at hmem
    rw [hmem] at hmarker
    exact hmarker (Marker.tag_prefix_announcement _)
  · exact hcase hdone

theorem lines_captured {k : Checker} {l : Checker.Launch} (hk : k.backend = .klee)
    (herr : l.stderr = announced s m) (hs : Printable s) :
    (l.captured k).lines [.stderr] = pieces s m := by
  have htext : (l.captured k).text .stderr =
      misread (Marker.announcement s ++ "\n" ++ Panic.mainPanic m ++ "\n") := by
    have hlatin1 : (k.command l.words).latin1 = true := by
      rw [Checker.command, hk]
      rfl
    show (k.command l.words).decode l.stderr = _
    rw [Command.decode, hlatin1, herr]
    rfl
  rw [Capture.lines_cons, Capture.lines_nil, List.append_nil, htext, linesOf_misread_announced hs]
  rfl

/-! ## The job -/

/-- The script or the place for KLEE's tests is where no file can be. -/
inductive Misplaced (k : Checker) (l : Checker.Launch) : Prop where
  | script (p : Path) (hp : p ∈ k.script) (hn : Disk.hasNull p.text = true)
  | tests (ho : Counterexample.Unsearchable l.output)

theorem head_of_overlong (h : Statistics.Overlong line) : ∃ cs, line.toList = 'K' :: cs := by
  obtain ⟨name, digits, hr, -⟩ := h
  unfold Statistics.reported? at hr
  dsimp only at hr
  split at hr
  case isTrue hp =>
    obtain ⟨rest, hrest⟩ := List.isPrefixOf_iff_prefix.mp hp
    exact ⟨"LEE: done:".toList ++ rest, hrest.symm⟩
  case isFalse => cases hr

/-- The two lines report no numbers. -/
theorem not_overflows {k : Checker} {l : Checker.Launch} (hk : k.backend = .klee)
    (herr : l.stderr = announced s m) (hm : Printable m) (hu : Unbroken m)
    (hs : s.toList <:+: m.toList) : ¬ k.Overflows (l.captured k) := by
  rintro ⟨-, line, hmem, hlong⟩
  obtain ⟨cs, hcs⟩ := head_of_overlong hlong
  rw [lines_captured hk herr (hm.mono hs), pieces,
    cut_announcement (hm.mono hs) (hu.mono hs), cut_mainPanic_of_unbroken hm hu] at hmem
  rcases List.mem_cons.mp hmem with rfl | hmem
  · obtain ⟨rest, hrest⟩ := Marker.tag_prefix_announcement (misread s)
    rw [hcs] at hrest
    exact absurd (List.cons_eq_cons.mp hrest).1 (by decide)
  · rw [List.mem_singleton.mp hmem, Panic.toList_mainPanic] at hcs
    exact absurd (List.cons_eq_cons.mp hcs).1 (by decide)

theorem aborts_iff {k : Checker} {l : Checker.Launch} (hk : k.backend = .klee)
    (hn : ¬ k.Overflows (l.captured k)) : k.Aborts l ↔ Misplaced k l := by
  constructor
  · rintro (⟨p, hp, hnull⟩ | hs | ⟨-, ho⟩)
    · exact .script p hp hnull
    · exact absurd hs hn
    · exact .tests ho
  · rintro (⟨p, hp, hnull⟩ | ho)
    · exact .script p hp hnull
    · exact .place hk ho

/-- What KLEE's tables read in a capture of these lines. -/
theorem judgement_captured {k : Checker} {l : Checker.Launch} (hk : k.backend = .klee)
    (ht : (l.captured k).timedOut = false) (hlines : (l.captured k).lines [.stderr] = pieces s m)
    (name : String) :
    k.judgement (l.captured k) name =
      ((Classification.verdict? rules ⟨Marker.expectation (pieces s m), name⟩ (pieces s m)).getD
        .unknown, Marker.expectation (pieces s m)) := by
  unfold Checker.judgement
  rw [ht, if_neg Bool.false_ne_true, hk, ← hlines]
  rfl

/-- **An expected panic is recognised, if its message is read in one line.** A program under KLEE
announces a panic with the text `s` and panics with a message that contains it, and nothing else is
on the error stream. If the message is written without the byte 0x85, there is an outcome, unless
the script or the tests are misplaced, and it is verified. If the byte is in it, no outcome is
verified; the exception is an announcement that is broken as well and has the words in it by which
KLEE ends its runs. -/
theorem expected_panic_recognised {k : Checker} {job : Job} {h : Host} {w : World}
    {l : Checker.Launch} (hk : k.backend = .klee) (hl : k.Launches job h w l)
    (ht : ¬ (l.overruns = true ∧ k.config.jobTimeout.isSome = true))
    (herr : l.stderr = announced s m) (hm : Printable m) (hs : s.toList <:+: m.toList) :
    (Unbroken m →
      ((∃ o, ((k.verify job).run h w).1 = .ok o) ↔ ¬ Misplaced k l) ∧
      ∀ o, ((k.verify job).run h w).1 = .ok o →
        o.verdict = .verified ∧ o.expectation = some (misread s)) ∧
    (¬ Unbroken m → Unbroken s ∨ ¬ Done (Marker.announcement (misread s)) →
      ∀ o, ((k.verify job).run h w).1 = .ok o → o.verdict ≠ .verified) := by
  have hv : k.backend.IsVerifier := Backend.isVerifier_iff.mpr (.inl hk)
  have hlines := lines_captured hk herr (hm.mono hs)
  have htimed : (l.captured k).timedOut = false :=
    Bool.eq_false_iff.mpr (mt hl.timedOut_iff.mp ht)
  have hjudge := judgement_captured hk htimed hlines job.displayName
  -- an outcome is that of the judgement
  have houtcome : ∀ o, ((k.verify job).run h w).1 = .ok o → ¬ k.Aborts l ∧
      Checker.IsOutcome job (k.judgement (l.captured k) job.displayName) o := by
    intro o ho
    have ha : ¬ k.Aborts l := by
      intro ha
      obtain ⟨e, he⟩ := Checker.verify_raises hv hl ha
      rw [ho] at he
      cases he
    obtain ⟨o', ho', hout⟩ := Checker.verify_returns hv hl ha
    rw [ho, Except.ok.injEq] at ho'
    exact ⟨ha, ho' ▸ hout⟩
  constructor
  · intro hu
    have hn := not_overflows hk herr hm hu hs
    obtain ⟨hexpect, hverdict⟩ := verdict_of_unbroken hm hu hs job.displayName
    rw [← aborts_iff hk hn]
    refine ⟨⟨fun ⟨o, ho⟩ => (houtcome o ho).1, fun ha => ?_⟩, fun o ho => ?_⟩
    · obtain ⟨o, ho, -⟩ := Checker.verify_returns hv hl ha
      exact ⟨o, ho⟩
    · obtain ⟨-, -, -, hov, hoe, -⟩ := houtcome o ho
      rw [hov, hoe, hjudge, hexpect, hverdict]
      exact ⟨rfl, rfl⟩
  · intro hu hcase o ho hverified
    obtain ⟨-, -, -, hov, -⟩ := houtcome o ho
    rw [hov, hjudge] at hverified
    cases hr : Classification.verdict? rules ⟨Marker.expectation (pieces s m), job.displayName⟩
        (pieces s m) with
    | none =>
      rw [hr] at hverified
      cases hverified
    | some v =>
      rw [hr] at hverified
      exact verdict_of_broken hm hu hs hcase _ (hr.trans (congrArg some hverified))

open Checker (sampleKlee sampleJob sampleDisk sampleLaunch saying launches_sample)

theorem stderr_sample (err : Text.Bytes) : (sampleLaunch err).stderr = err := rfl

theorem searchable_sample (err : Text.Bytes) :
    ¬ Counterexample.Unsearchable (sampleLaunch err).output := by
  rintro ⟨part, hpart, hn⟩
  have hparts : ∀ part ∈ Counterexample.fixedParts ⟨.relative, ["kleeout", "t"]⟩,
      Disk.hasNull part = false := by decide
  rw [hparts part hpart] at hn
  cases hn

/-- A text beyond ASCII. -/
theorem expected_panic_recognised_umlaut :
    ∃ o, ((sampleKlee.verify sampleJob).run (saying (announced "grüß" "Vögel: grüß Gott"))
        (World.begin sampleDisk)).1 = .ok o ∧
      o.verdict = .verified ∧ o.expectation = some (misread "grüß") := by
  have hm : Printable "Vögel: grüß Gott" := List.all_iff_forall_prop.mp (by decide)
  have hu : Unbroken "Vögel: grüß Gott" := by
    unfold Unbroken
    decide +kernel
  have hs : "grüß".toList <:+: "Vögel: grüß Gott".toList :=
    ⟨"Vögel: ".toList, " Gott".toList, by decide⟩
  have hl := launches_sample (announced "grüß" "Vögel: grüß Gott")
  have ht : ¬ ((sampleLaunch (announced "grüß" "Vögel: grüß Gott")).overruns = true ∧
      sampleKlee.config.jobTimeout.isSome = true) := fun ht => Bool.false_ne_true ht.1
  obtain ⟨hiff, hout⟩ := (expected_panic_recognised rfl hl ht (stderr_sample _) hm hs).1 hu
  have hplace : ¬ Misplaced sampleKlee (sampleLaunch (announced "grüß" "Vögel: grüß Gott")) := by
    rintro (⟨p, hp, -⟩ | ho)
    · cases hp
    · exact searchable_sample _ ho
  obtain ⟨o, ho⟩ := hiff.mpr hplace
  exact ⟨o, ho, hout o ho⟩

/-- The letter Å has the byte in it: the announced panic is taken for one that was not expected. -/
theorem expected_panic_missed :
    Printable "Å" ∧ sampleKlee.Launches sampleJob (saying (announced "Å" "Å"))
        (World.begin sampleDisk) (sampleLaunch (announced "Å" "Å")) ∧
      ∃ o, ((sampleKlee.verify sampleJob).run (saying (announced "Å" "Å"))
          (World.begin sampleDisk)).1 = .ok o ∧ o.verdict = .panic := by
  have hm : Printable "Å" := List.all_iff_forall_prop.mp (by decide)
  have hlines := lines_captured (k := sampleKlee) rfl (stderr_sample (announced "Å" "Å")) hm
  have hreads : Classification.verdict? rules
      ⟨Marker.expectation (pieces "Å" "Å"), sampleJob.displayName⟩ (pieces "Å" "Å") =
        some .panic := by
    decide +kernel
  have ha : ¬ sampleKlee.Aborts (sampleLaunch (announced "Å" "Å")) := by
    have hdigits : ∀ line ∈ pieces "Å" "Å", Statistics.reported? line = none := by
      decide +kernel
    rintro (⟨p, hp, -⟩ | ⟨-, line, hline, name, digits, hreport, -⟩ | ⟨-, ho⟩)
    · cases hp
    · rw [hlines] at hline
      rw [hdigits line hline] at hreport
      cases hreport
    · exact searchable_sample _ ho
  have hl := launches_sample (announced "Å" "Å")
  obtain ⟨o, ho, -, -, hverdict, -⟩ :=
    Checker.verify_returns Checker.sampleKlee_isVerifier hl ha
  have hjudge := judgement_captured rfl rfl hlines sampleJob.displayName
  rw [hjudge, hreads] at hverdict
  exact ⟨hm, hl, o, ho, hverdict⟩

end Klee

end Assay
