import Assay.Proofs.Classification
import Assay.Tool.Klee
import Mathlib.Tactic.Tauto

/-!
# When KLEE's output verifies a job

KLEE's table is one list of seventeen rules. Cut into its parts it says: a line that begins like an
alarm fails, a marker says nothing, an expected panic verifies, a line that tells of trouble fails,
and the end of a run verifies if no panic was expected. `Reads` is this reading of one line;
`klee_verified_iff` follows the lines up to the first that decides, so that no failing run is ever
taken for a verified one.
-/

namespace Assay.Klee

/-! ## Signals -/

/-- How lines begin with which KLEE gives up or reports an error. -/
def alarms : List String :=
  ["KLEE: HaltTimer invoked", "KLEE: halting execution, dumping remaining states", "KLEE: ERROR:"]

/-- What lines contain that tell of a failure of the program. -/
def troubles : List String :=
  ["assertion failed", "verification failed", "index out of bounds", "with overflow", "panicked at",
    "note: run with `RUST_BACKTRACE=1`"]

def IsMarker (line : String) : Prop :=
  Marker.tag.toList <+: line.toList

theorem isMarker_iff {line : String} : Marker.isMarker line = true ↔ IsMarker line :=
  Text.startsWith_iff

/-- The line begins with an alarm. -/
def Alarming (line : String) : Prop :=
  ∃ text ∈ alarms, text.toList <+: line.toList

def Troubled (line : String) : Prop :=
  ∃ text ∈ troubles, text.toList <:+: line.toList

/-- The line tells of a failure. -/
def FailureSignal (line : String) : Prop :=
  Alarming line ∨ ¬ IsMarker line ∧ Troubled line

/-- The line tells that the run is over. -/
def Done (line : String) : Prop :=
  "KLEE: done:".toList <:+: line.toList

/-- The line by which a run passes: its end if no panic is expected, and otherwise the panic. -/
def Passes : Expectation → String → Prop
  | none, line => ¬ IsMarker line ∧ ¬ FailureSignal line ∧ Done line
  | some text, line =>
    ¬ IsMarker line ∧ ¬ Alarming line ∧ ∃ m, Panic.Quotes line m ∧ text.toList <:+: m.toList

/-! ## The parts of the table -/

def alarmRules : List Rule :=
  rules.take 8

def troubleRules : List Rule :=
  (rules.drop 10).take 6

theorem rules_eq : rules = alarmRules ++
    (⟨"expect-marker", .isMarker, .noSignal⟩ ::
      ⟨"expected-panic", .expectedPanic, .verdict .verified⟩ ::
      (troubleRules ++ [⟨"done", .contains "KLEE: done:", .completion⟩])) := rfl

theorem alarmRules_failing : alarmRules.all Classification.failing = true := by
  decide

theorem troubleRules_failing : troubleRules.all Classification.failing = true := by
  decide

variable {ctx : LineContext} {line : String}

theorem exists_alarmRule_iff :
    (∃ r ∈ alarmRules, r.condition.holds ctx line = true) ↔ Alarming line := by
  -- the special errors begin like any error
  have herr : ∀ {p : String}, "KLEE: ERROR:".toList <+: p.toList → p.toList <+: line.toList →
      Alarming line := fun hp h => ⟨"KLEE: ERROR:", by simp [alarms], hp.trans h⟩
  constructor
  · rintro ⟨r, hr, hc⟩
    simp only [alarmRules, rules, isError, List.take_succ_cons, List.take_zero, List.mem_cons,
      List.not_mem_nil, or_false] at hr
    rcases hr with rfl | rfl | rfl | rfl | rfl | rfl | rfl | rfl <;>
      simp only [Condition.holds, Condition.allHold, Bool.and_eq_true, Text.startsWith_iff] at hc
    · exact ⟨_, by simp [alarms], hc⟩
    · exact ⟨_, by simp [alarms], hc⟩
    · exact herr (by decide) hc
    · exact herr (by decide) hc
    · exact herr List.prefix_rfl hc.1
    · exact herr List.prefix_rfl hc.1
    · exact herr List.prefix_rfl hc.1
    · exact herr List.prefix_rfl hc
  · rintro ⟨text, ht, h⟩
    have hc : (Condition.startsWith text).holds ctx line = true := Text.startsWith_iff.mpr h
    simp only [alarms, List.mem_cons, List.not_mem_nil, or_false] at ht
    rcases ht with rfl | rfl | rfl
    · exact ⟨⟨"halt-timer", _, .verdict .timeout⟩, by simp [alarmRules, rules], hc⟩
    · exact ⟨⟨"halting", _, .verdict .timeout⟩, by simp [alarmRules, rules], hc⟩
    · exact ⟨⟨"klee-error", isError, .verdict .error⟩, by simp [alarmRules, rules], hc⟩

theorem exists_troubleRule_iff :
    (∃ r ∈ troubleRules, r.condition.holds ctx line = true) ↔ Troubled line := by
  simp [troubleRules, rules, Condition.holds, Text.contains_iff, Troubled, troubles]

/-! ## One line -/

theorem verdictOfLine?_of_alarming (ctx : LineContext) (h : Alarming line) :
    ∃ v, Classification.verdictOfLine? rules ctx line = some v ∧ v ≠ .verified := by
  rw [rules_eq]
  exact Classification.verdictOfLine?_append_of_exists alarmRules_failing
    (exists_alarmRule_iff.mpr h)

theorem verdictOfLine?_of_not_alarming (h : ¬ Alarming line) :
    Classification.verdictOfLine? rules ctx line =
      if Marker.isMarker line then none
      else if Panic.meets line ctx.expect then some .verified
      else Classification.verdictOfLine?
        (troubleRules ++ [⟨"done", .contains "KLEE: done:", .completion⟩]) ctx line := by
  have hn : ∀ r ∈ alarmRules, ¬ r.condition.holds ctx line = true :=
    fun r hr hc => h (exists_alarmRule_iff.mp ⟨r, hr, hc⟩)
  rw [rules_eq, Classification.verdictOfLine?_append_of_forall hn,
    Classification.verdictOfLine?_cons, Classification.verdictOfLine?_cons]
  rfl

theorem verdictOfLine?_of_troubled (ctx : LineContext) (h : Troubled line) :
    ∃ v, Classification.verdictOfLine?
      (troubleRules ++ [⟨"done", .contains "KLEE: done:", .completion⟩]) ctx line = some v ∧
        v ≠ .verified :=
  Classification.verdictOfLine?_append_of_exists troubleRules_failing
    (exists_troubleRule_iff.mpr h)

theorem verdictOfLine?_of_not_troubled (h : ¬ Troubled line) :
    Classification.verdictOfLine?
      (troubleRules ++ [⟨"done", .contains "KLEE: done:", .completion⟩]) ctx line =
        if Text.contains "KLEE: done:" line then Signal.completion.verdict? ctx else none := by
  have hn : ∀ r ∈ troubleRules, ¬ r.condition.holds ctx line = true :=
    fun r hr hc => h (exists_troubleRule_iff.mp ⟨r, hr, hc⟩)
  rw [Classification.verdictOfLine?_append_of_forall hn, Classification.verdictOfLine?_cons,
    Classification.verdictOfLine?_nil]
  rfl

/-- An expected panic is a trouble, were it not expected. -/
theorem troubled_of_meets {expect : Expectation} (h : Panic.meets line expect = true) :
    Troubled line := by
  obtain ⟨-, m, -, hq, -⟩ := Panic.meets_iff.mp h
  have hp : "panicked at".toList <:+: Panic.opening.toList := ⟨" ".toList, " '".toList, rfl⟩
  exact ⟨"panicked at", by simp [troubles], hp.trans hq.opening_infix⟩

/-- How the table reads a line: an alarm, a marker, the expected panic, a trouble, the end of the
run, or nothing of the kind, in this order. The index is the verdict of the line. -/
inductive Reads (ctx : LineContext) (line : String) : Option Verdict → Prop where
  | alarm {v : Verdict} (ha : Alarming line) (hv : v ≠ .verified) : Reads ctx line (some v)
  | marker (ha : ¬ Alarming line) (hm : IsMarker line) : Reads ctx line none
  | panic (ha : ¬ Alarming line) (hm : ¬ IsMarker line)
    (hp : Panic.meets line ctx.expect = true) : Reads ctx line (some .verified)
  | trouble {v : Verdict} (hm : ¬ IsMarker line) (hp : ¬ Panic.meets line ctx.expect = true)
    (ht : Troubled line) (hv : v ≠ .verified) : Reads ctx line (some v)
  | done (ha : ¬ Alarming line) (hm : ¬ IsMarker line) (hp : ¬ Panic.meets line ctx.expect = true)
    (ht : ¬ Troubled line) (hd : Done line) : Reads ctx line (Signal.completion.verdict? ctx)
  | nothing (ha : ¬ Alarming line) (hp : ¬ Panic.meets line ctx.expect = true)
    (ht : ¬ Troubled line) (hd : ¬ Done line) : Reads ctx line none

/-- **The table reads every line** in one of these ways. -/
theorem reads (ctx : LineContext) (line : String) :
    Reads ctx line (Classification.verdictOfLine? rules ctx line) := by
  by_cases ha : Alarming line
  · obtain ⟨v, hv, hne⟩ := verdictOfLine?_of_alarming ctx ha
    rw [hv]
    exact .alarm ha hne
  rw [verdictOfLine?_of_not_alarming ha]
  by_cases hm : IsMarker line
  · rw [if_pos (isMarker_iff.mpr hm)]
    exact .marker ha hm
  rw [if_neg fun h => hm (isMarker_iff.mp h)]
  by_cases hp : Panic.meets line ctx.expect = true
  · rw [if_pos hp]
    exact .panic ha hm hp
  rw [if_neg hp]
  by_cases ht : Troubled line
  · obtain ⟨v, hv, hne⟩ := verdictOfLine?_of_troubled ctx ht
    rw [hv]
    exact .trouble hm hp ht hne
  rw [verdictOfLine?_of_not_troubled ht]
  by_cases hd : Done line
  · rw [if_pos (Text.contains_iff.mpr hd)]
    exact .done ha hm hp ht hd
  · rw [if_neg fun h => hd (Text.contains_iff.mp h)]
    exact .nothing ha hp ht hd

/-- A line is passed over if it is no failure signal and not the end of the run. -/
theorem verdictOfLine?_eq_none_iff :
    Classification.verdictOfLine? rules ctx line = none ↔
      ¬ FailureSignal line ∧ ¬ (¬ IsMarker line ∧ Done line) := by
  have hr := reads ctx line
  generalize Classification.verdictOfLine? rules ctx line = o at hr ⊢
  cases hr with
  | alarm ha _ => simp [FailureSignal, ha]
  | marker ha hm => simp [FailureSignal, ha, hm]
  | panic ha hm hp => simp [FailureSignal, hm, troubled_of_meets hp]
  | trouble hm _ ht _ => simp [FailureSignal, hm, ht]
  | done _ hm _ _ hd => simp [Signal.verdict?, hm, hd]
  | nothing ha _ ht hd => simp [FailureSignal, ha, ht, hd]

/-- A line passes if it is the expected panic or, when none is expected, the end of the run. -/
theorem passes_iff {expect : Expectation} :
    Passes expect line ↔ ¬ IsMarker line ∧ ¬ Alarming line ∧
      (Panic.meets line expect = true ∨ expect = none ∧ ¬ Troubled line ∧ Done line) := by
  cases expect with
  | none =>
    have hp : ¬ Panic.meets line none = true := by simp [Panic.meets, Panic.expected?]
    simp only [Passes, FailureSignal, hp]
    tauto
  | some text =>
    have hp : Panic.meets line (some text) = true ↔
        ∃ m, Panic.Quotes line m ∧ text.toList <:+: m.toList := by
      simp [Panic.meets_iff]
    simp [Passes, hp]

/-- A line verifies the run exactly if the run passes by it. -/
theorem verdictOfLine?_eq_verified_iff :
    Classification.verdictOfLine? rules ctx line = some .verified ↔ Passes ctx.expect line := by
  rw [passes_iff]
  have hr := reads ctx line
  generalize Classification.verdictOfLine? rules ctx line = o at hr ⊢
  cases hr with
  | alarm ha hv => simp [ha, hv]
  | marker _ hm => simp [hm]
  | panic ha hm hp => simp [ha, hm, hp]
  | trouble _ hp ht hv => simp [hp, ht, hv]
  | done ha hm hp ht hd =>
    cases he : ctx.expect <;> simp_all [Signal.verdict?]
  | nothing _ hp _ hd => simp [hp, hd]

/-! ## A whole run -/

/-- **No failing run is verified.** Classification of KLEE's output always ends, and its verdict is
`verified` exactly if some line passes and no line before it is a failure signal or the end of the
run; the lines after it play no part but for the markers that they hold. -/
theorem klee_verified_iff (config : Config) (script : Option Path) (capture : Capture)
    (name : String) (h : Host) (w : World) :
    let k : Checker := ⟨.klee, config, script⟩
    let lines := capture.lines [.stderr]
    ∃ v w', (k.classify capture name).run h w = (.ok (v, Marker.expectation lines), w') ∧
      (v = .verified ↔ ∃ pre line post, lines = pre ++ line :: post ∧
        (∀ l ∈ pre, ¬ FailureSignal l ∧ ¬ (¬ IsMarker l ∧ Done l)) ∧
        Passes (Marker.expectation lines) line) := by
  intro k lines
  have hk : k.backend.IsVerifier := by simp [k, Backend.isVerifier_iff]
  obtain ⟨_, w', hrun, rfl⟩ := (Checker.classify_returns hk capture name).run h w
  refine ⟨_, w', hrun, ?_⟩
  have hgetD : ∀ o : Option Verdict, o.getD .unknown = .verified ↔ o = some .verified := by
    rintro (_ | _) <;> simp
  show (Classification.verdict? rules ⟨Marker.expectation lines, name⟩ lines).getD .unknown =
    .verified ↔ _
  rw [hgetD, Classification.verdict?_eq_some_iff]
  simp only [verdictOfLine?_eq_none_iff, verdictOfLine?_eq_verified_iff]

/-- A marker counts wherever it stands, so the panic is expected. Whether it verifies the run is a
matter of what comes first, the panic or the error. -/
example : tool.reading ⟨1, "",
    "thread 'main' panicked at 'x', t.rs:1:1\nKLEE: ERROR: t.rs:1\nVERIFIER_EXPECT: should_panic\n",
    false⟩ "t" = (.verified, some "") := by
  decide +kernel

example : tool.reading ⟨1, "",
    "KLEE: ERROR: t.rs:1\nVERIFIER_EXPECT: should_panic\nthread 'main' panicked at 'x', t.rs:1:1\n",
    false⟩ "t" = (.error, some "") := by
  decide +kernel

end Assay.Klee
