import Assay.Proofs.Classification

/-!
# Answers on either stream

SeaHorn and SMACK end with an answer in a line of its own, on either stream. Both streams are read
as one list of lines, the error stream first, and the first line that decides settles the verdict: a
panic that was expected, or an answer. Markers never decide. `Reporter.Decides` is this reading of
one line, and `reporter_verdict` the verdict on a whole capture: a run is verified only by the panic
that was announced, or by the end of the run if none was.

The two tables have the same head, a rule for markers and one for the expected panic;
`verdictOfLine?_reporter` says what such a table does, whatever rules follow.
-/

namespace Assay

/-- What an answer says: that a violation can be reached, that the run is over and found none, or
that the time was not enough. -/
inductive Answer where
  | violation
  | completion
  | timeout
  deriving DecidableEq, Repr

/-- The verdict on a run with this answer. The end of a run is no success if a panic was
expected. -/
def Answer.verdict (expect : Expectation) : Answer → Verdict
  | .violation => .error
  | .completion => if expect = none then .verified else .error
  | .timeout => .timeout

/-- The tools that answer on either stream. -/
inductive Reporter where
  | seahorn
  | smack
  deriving DecidableEq, Repr

namespace Reporter

variable {t : Reporter} {expect : Expectation} {line : String} {a : Answer} {v : Verdict}

def backend : Reporter → Backend
  | .seahorn => .seahorn
  | .smack => .smack

/-- The streams that are searched for markers. -/
def markerStreams : Reporter → List Stream
  | .seahorn => [.stderr]
  | .smack => [.stderr, .stdout]

/-- The lines that are answers. -/
inductive Says : Reporter → String → Answer → Prop where
  | sat : Says .seahorn "sat" .violation
  | unsat : Says .seahorn "unsat" .completion
  | noErrors {line : String} (h : "SMACK found no errors".toList <+: line.toList) :
    Says .smack line .completion
  | anError {line : String} (h : "SMACK found an error".toList <+: line.toList) :
    Says .smack line .violation
  | timedOut {line : String} (h : "SMACK timed out".toList <+: line.toList) :
    Says .smack line .timeout

/-- The line is a panic, and the one that was announced. -/
def MeetsExpectation (expect : Expectation) (line : String) : Prop :=
  ∃ text m, expect = some text ∧ Panic.Quotes line m ∧ text.toList <:+: m.toList

/-- A line that is no marker decides if it is the expected panic or, otherwise, an answer. The index
is the verdict. -/
inductive Decides (t : Reporter) (expect : Expectation) (line : String) : Verdict → Prop where
  | panic (hm : ¬ Marker.tag.toList <+: line.toList) (hp : MeetsExpectation expect line) :
    Decides t expect line .verified
  | answer {a : Answer} (hm : ¬ Marker.tag.toList <+: line.toList)
    (hp : ¬ MeetsExpectation expect line) (ha : t.Says line a) :
    Decides t expect line (a.verdict expect)

/-! ## The tables -/

/-- The rules behind the two that both tables begin with. -/
def answerRules : Reporter → List Rule
  | .seahorn => Seahorn.rules.drop 2
  | .smack => Smack.rules.drop 2

theorem rules_eq (t : Reporter) : t.backend.tool.rules =
    ⟨"expect-marker", .isMarker, .noSignal⟩ ::
      ⟨"expected-panic", .expectedPanic, .verdict .verified⟩ :: t.answerRules := by
  cases t <;> rfl

theorem isVerifier (t : Reporter) : t.backend.IsVerifier := by
  cases t <;> simp [backend, Backend.isVerifier_iff]

variable {ctx : LineContext}

/-- A table that begins with the rules for markers and for the expected panic. -/
theorem verdictOfLine?_reporter (t : Reporter) (ctx : LineContext) (line : String) :
    Classification.verdictOfLine? t.backend.tool.rules ctx line =
      if Marker.isMarker line then none
      else if Panic.meets line ctx.expect then some .verified
      else Classification.verdictOfLine? t.answerRules ctx line := by
  rw [rules_eq, Classification.verdictOfLine?_cons, Classification.verdictOfLine?_cons]
  rfl

/-- Beginnings neither of which begins the other exclude each other. -/
theorem not_prefix_of_prefix {p q s : List Char} (hpq : ¬ p <+: q) (hqp : ¬ q <+: p)
    (h : p <+: s) : ¬ q <+: s := by
  intro hq
  rcases List.prefix_or_prefix_of_prefix h hq with h | h
  · exact hpq h
  · exact hqp h

theorem completion_verdict? (ctx : LineContext) :
    Signal.completion.verdict? ctx = some (Answer.completion.verdict ctx.expect) := by
  cases he : ctx.expect <;> simp [Signal.verdict?, Answer.verdict, he]

theorem says_seahorn_iff :
    Classification.verdictOfLine? (answerRules .seahorn) ctx line = some v ↔
      ∃ a, Says .seahorn line a ∧ v = a.verdict ctx.expect := by
  have htable : Classification.verdictOfLine? (answerRules .seahorn) ctx line =
      if line = "sat" then some .error
      else if line = "unsat" then Signal.completion.verdict? ctx else none := by
    simp [answerRules, Seahorn.rules, Classification.verdictOfLine?_cons,
      Classification.verdictOfLine?_nil, Condition.holds, Signal.verdict?]
  rw [htable, completion_verdict?]
  constructor
  · intro h
    split at h
    · rename_i hl
      subst hl
      exact ⟨_, .sat, (Option.some.inj h).symm⟩
    · split at h
      · rename_i hl
        subst hl
        exact ⟨_, .unsat, (Option.some.inj h).symm⟩
      · cases h
  · rintro ⟨a, ha, rfl⟩
    cases ha with
    | sat => simp [Answer.verdict]
    | unsat => simp

theorem says_smack_iff :
    Classification.verdictOfLine? (answerRules .smack) ctx line = some v ↔
      ∃ a, Says .smack line a ∧ v = a.verdict ctx.expect := by
  have htable : Classification.verdictOfLine? (answerRules .smack) ctx line =
      if Text.startsWith "SMACK found no errors" line then Signal.completion.verdict? ctx
      else if Text.startsWith "SMACK found an error" line then some .error
      else if Text.startsWith "SMACK timed out" line then some .timeout else none := by
    rw [show answerRules .smack = Smack.rules.drop 2 from rfl, Smack.rules, List.drop_succ_cons,
      List.drop_succ_cons, List.drop_zero, Classification.verdictOfLine?_cons,
      Classification.verdictOfLine?_cons, Classification.verdictOfLine?_cons,
      Classification.verdictOfLine?_nil]
    rfl
  rw [htable, completion_verdict?]
  constructor
  · intro h
    split at h
    case isTrue hl => exact ⟨_, .noErrors (Text.startsWith_iff.mp hl), (Option.some.inj h).symm⟩
    split at h
    case isTrue hl => exact ⟨_, .anError (Text.startsWith_iff.mp hl), (Option.some.inj h).symm⟩
    split at h
    case isTrue hl => exact ⟨_, .timedOut (Text.startsWith_iff.mp hl), (Option.some.inj h).symm⟩
    cases h
  · have skip {p q : String} (hp : p.toList <+: line.toList) (hpq : ¬ p.toList <+: q.toList)
        (hqp : ¬ q.toList <+: p.toList) : ¬ Text.startsWith q line = true := fun h =>
      not_prefix_of_prefix hpq hqp hp (Text.startsWith_iff.mp h)
    rintro ⟨a, ha, rfl⟩
    cases ha with
    | noErrors h => rw [if_pos (Text.startsWith_iff.mpr h)]
    | anError h =>
      rw [if_neg (skip h (by decide) (by decide)), if_pos (Text.startsWith_iff.mpr h)]
      rfl
    | timedOut h =>
      rw [if_neg (skip h (by decide) (by decide)), if_neg (skip h (by decide) (by decide)),
        if_pos (Text.startsWith_iff.mpr h)]
      rfl

theorem verdictOfLine?_answerRules_iff :
    Classification.verdictOfLine? t.answerRules ctx line = some v ↔
      ∃ a, t.Says line a ∧ v = a.verdict ctx.expect := by
  cases t with
  | seahorn => exact says_seahorn_iff
  | smack => exact says_smack_iff

/-! ## One line -/

/-- **The tables read every line** like `Decides`. -/
theorem verdictOfLine?_eq_some_iff :
    Classification.verdictOfLine? t.backend.tool.rules ctx line = some v ↔
      t.Decides ctx.expect line v := by
  rw [verdictOfLine?_reporter]
  by_cases hm : Marker.isMarker line = true
  · have hm' := Text.startsWith_iff.mp hm
    rw [if_pos hm]
    constructor
    · intro h
      cases h
    · rintro (⟨hn, -⟩ | ⟨hn, -⟩)
      · exact absurd hm' hn
      · exact absurd hm' hn
  have hm' : ¬ Marker.tag.toList <+: line.toList := fun h => hm (Text.startsWith_iff.mpr h)
  rw [if_neg hm]
  by_cases hp : Panic.meets line ctx.expect = true
  · have hp' : MeetsExpectation ctx.expect line := Panic.meets_iff.mp hp
    rw [if_pos hp]
    constructor
    · rintro ⟨rfl⟩
      exact .panic hm' hp'
    · rintro (_ | ⟨-, hn, -⟩)
      · rfl
      · exact absurd hp' hn
  have hp' : ¬ MeetsExpectation ctx.expect line := fun h => hp (Panic.meets_iff.mpr h)
  rw [if_neg hp, verdictOfLine?_answerRules_iff]
  constructor
  · rintro ⟨a, ha, rfl⟩
    exact .answer hm' hp' ha
  · rintro (⟨-, hn⟩ | ⟨-, -, ha⟩)
    · exact absurd hn hp'
    · exact ⟨_, ha, rfl⟩

theorem verdictOfLine?_eq_none_iff :
    Classification.verdictOfLine? t.backend.tool.rules ctx line = none ↔
      ∀ v, ¬ t.Decides ctx.expect line v := by
  simp only [Option.eq_none_iff_forall_ne_some, ne_eq, verdictOfLine?_eq_some_iff]

/-- A verified run has met its expectation, or has come to its end without one. -/
theorem Decides.verified (hd : t.Decides expect line .verified) :
    ¬ Marker.tag.toList <+: line.toList ∧
      (MeetsExpectation expect line ∨ expect = none ∧ t.Says line .completion) := by
  generalize hv : Verdict.verified = v at hd
  cases hd with
  | panic hm hp => exact ⟨hm, .inl hp⟩
  | @answer a hm hp ha =>
    refine ⟨hm, .inr ?_⟩
    cases a with
    | violation => cases hv
    | completion =>
      by_cases he : expect = none
      · exact ⟨he, ha⟩
      · rw [Answer.verdict, if_neg he] at hv
        cases hv
    | timeout => cases hv

/-! ## A whole run -/

/-- **The first deciding line settles the verdict**, on whichever stream it is. Classification of
SeaHorn's and SMACK's output always ends. Its verdict is that of the first line that decides, and
`unknown` if there is none; so it is `verified` only for a panic that was announced, or for the end
of a run when nothing was announced on the streams that are searched for markers. -/
theorem reporter_verdict (t : Reporter) (config : Config) (script : Option Path)
    (capture : Capture) (name : String) (h : Host) (w : World) :
    let k : Checker := ⟨t.backend, config, script⟩
    let lines := capture.lines [.stderr, .stdout]
    let expect := Marker.expectation (capture.lines t.markerStreams)
    ∃ v w', (k.classify capture name).run h w = (.ok (v, expect), w') ∧
      ((v = .unknown ∧ ∀ line ∈ lines, ∀ v', ¬ t.Decides expect line v') ∨
        ∃ pre line post, lines = pre ++ line :: post ∧
          (∀ l ∈ pre, ∀ v', ¬ t.Decides expect l v') ∧ t.Decides expect line v) ∧
      (v = .verified → ∃ line ∈ lines, ¬ Marker.tag.toList <+: line.toList ∧
        (MeetsExpectation expect line ∨ expect = none ∧ t.Says line .completion)) := by
  intro k lines expect
  obtain ⟨_, w', hrun, rfl⟩ :=
    (Checker.classify_returns (k := k) t.isVerifier capture name).run h w
  have hexpect : t.backend.tool.expectation capture = expect := by
    cases t <;> rfl
  have hlines : capture.lines t.backend.tool.verdictStreams = lines := by
    cases t <;> rfl
  rw [show k.backend.tool.reading capture name =
    ((Classification.verdict? t.backend.tool.rules ⟨expect, name⟩ lines).getD .unknown, expect) by
      rw [← hexpect, ← hlines]; rfl] at hrun
  refine ⟨_, w', hrun, ?_⟩
  cases hv : Classification.verdict? t.backend.tool.rules ⟨expect, name⟩ lines with
  | none =>
    have hnone : ∀ line ∈ lines, ∀ v', ¬ t.Decides expect line v' := fun line hl =>
      verdictOfLine?_eq_none_iff.mp (List.findSome?_eq_none_iff.mp hv line hl)
    exact ⟨.inl ⟨rfl, hnone⟩, fun hu => nomatch hu⟩
  | some v =>
    obtain ⟨pre, line, post, hs, hpre, hline⟩ := Classification.verdict?_eq_some_iff.mp hv
    have hd : t.Decides expect line v := verdictOfLine?_eq_some_iff.mp hline
    refine ⟨.inr ⟨pre, line, post, hs, fun l hl => verdictOfLine?_eq_none_iff.mp (hpre l hl), hd⟩,
      ?_⟩
    rintro rfl
    exact ⟨line, hs ▸ List.mem_append_right pre List.mem_cons_self, hd.verified⟩

/-- The error stream comes first: an expected panic on it settles the verdict before the answer on
the other one, and so does an answer on it. The marker may stand behind either. -/
example : Seahorn.tool.reading ⟨0, "sat\n",
    "thread 'main' panicked at 'x', t.rs:1:1\nVERIFIER_EXPECT: should_panic\n", false⟩ "t" =
      (.verified, some "") := by
  decide +kernel

example : Seahorn.tool.reading ⟨0, "unsat\n",
    "sat\nthread 'main' panicked at 'x', t.rs:1:1\nVERIFIER_EXPECT: should_panic\n", false⟩ "t" =
      (.error, some "") := by
  decide +kernel

end Reporter

end Assay
