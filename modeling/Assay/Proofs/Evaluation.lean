import Assay.Proofs.Classification
import Assay.Proofs.Statistics

/-!
# After the process

What is left to do for a job once its process has ended: judge the output, show the important lines,
read the statistics and look for counterexamples. Two of these steps can fail, and only for KLEE: a
number may have too many digits, and the tests may have to be looked for where no file can be.
`evaluate_returns` and `evaluate_raises` say so for all of them together; each step has a fact of
its own before. None of them does more than talk: `keeps_deeds_evaluate`.
-/

namespace Assay

open Assay.Action (Keeps LogFree Raises Returns Yields keeps_log logFree_deeds)

namespace Importance

variable {rules : List RankRule} {ctx : LineContext} {default verbose : Int} {lines : List String}

theorem echo_returns : Returns (echo rules ctx default verbose lines) fun _ => True :=
  (Classification.logNotes_returns _).seq fun _ =>
    Returns.forM _ fun _ _ => Action.returns_print _

theorem keeps_deeds_echo : Keeps World.deeds (echo rules ctx default verbose lines) :=
  (Classification.keeps_logNotes logFree_deeds _).bind fun _ =>
    Keeps.forM _ fun _ _ => Action.keeps_deeds_printLine _

end Importance

namespace Counterexample

variable {output : Path} {tail : String} {c : Config} {δ : Type} {view : World → δ}

/-- Some component that is looked up as it is holds a null character. -/
def Unsearchable (output : Path) : Prop :=
  ∃ part ∈ fixedParts output, Disk.hasNull part = true

theorem any_fixedParts_iff :
    (fixedParts output).any Disk.hasNull = true ↔ Unsearchable output :=
  List.any_eq_true

theorem matching_returns (ho : ¬ Unsearchable output) (tail : String) :
    Returns (matching output tail) fun _ => True := by
  unfold matching
  rw [if_neg (mt any_fixedParts_iff.mp ho)]
  split
  · exact Returns.pure trivial
  · exact Returns.disk.seq fun _ => Returns.pure trivial

theorem matching_raises (ho : Unsearchable output) (tail : String) :
    Raises (matching output tail) := by
  unfold matching
  rw [if_pos (any_fixedParts_iff.mpr ho)]
  exact Raises.fail _

theorem keeps_matching : Keeps view (matching output tail) :=
  Keeps.ite (Keeps.fail _) (Keeps.ite (Keeps.pure _) (Keeps.disk.bind fun _ => Keeps.pure _))

theorem failures_returns (ho : ¬ Unsearchable output) :
    Returns (failures output) fun _ => True :=
  (matching_returns ho _).seq fun _ => (Action.returns_log _ _ _).seq fun _ =>
    Returns.pure trivial

theorem keeps_failures (hv : LogFree view) : Keeps view (failures output) :=
  keeps_matching.bind fun _ => (keeps_log hv _ _ _).bind fun _ => Keeps.pure _

/-- Counterexamples are found, or there are none, unless KLEE's are where no file can be. -/
theorem collect_returns {b : Backend} (ho : b = .klee → ¬ Unsearchable output) :
    Returns (collect b c output) fun _ => True := by
  unfold collect
  split
  · split
    · exact matching_returns (ho rfl) _
    · exact (failures_returns (ho rfl)).seq fun _ => Returns.pure trivial
  · exact Returns.pure trivial

theorem collect_raises (ho : Unsearchable output) : Raises (collect .klee c output) := by
  show Raises (if 1 < c.replay then _ else _)
  split
  · exact matching_raises ho _
  · exact ((matching_raises ho _).bind _).bind _

theorem keeps_collect (hv : LogFree view) (b : Backend) (c : Config) (output : Path) :
    Keeps view (collect b c output) := by
  unfold collect
  split
  · exact Keeps.ite keeps_matching ((keeps_failures hv).bind fun _ => Keeps.pure _)
  · exact Keeps.pure _

end Counterexample

namespace Checker

variable {k : Checker} {job : Job} {output : Path} {capture : Capture} {δ : Type}
  {view : World → δ}

/-- The verdict on a run and what it expected, without the log. -/
def judgement (k : Checker) (capture : Capture) (name : String) : Verdict × Expectation :=
  if capture.timedOut then (.timeout, none) else k.backend.tool.reading capture name

theorem judge_returns (hk : k.backend.IsVerifier) (capture : Capture) (name : String) :
    Returns (k.judge capture name) (· = k.judgement capture name) := by
  unfold judge judgement
  cases capture.timedOut with
  | true => exact Returns.pure rfl
  | false => exact classify_returns hk capture name

theorem keeps_judge (hv : LogFree view) (k : Checker) (capture : Capture) (name : String) :
    Keeps view (k.judge capture name) :=
  Keeps.ite (Keeps.pure _) (keeps_classify hv k capture name)

/-- KLEE reports a number that has too many digits. -/
def Overflows (k : Checker) (capture : Capture) : Prop :=
  k.backend = .klee ∧ ∃ line ∈ capture.lines [.stderr], Statistics.Overlong line

theorem statistics_returns (hs : ¬ k.Overflows capture) :
    Returns (k.statistics capture) fun _ => True := by
  unfold statistics
  split
  case h_1 hk =>
    have hlines : ∀ line ∈ capture.lines [.stderr], ¬ Statistics.Overlong line :=
      fun line hl ho => hs ⟨hk, line, hl, ho⟩
    obtain ⟨stats, hp⟩ := Statistics.parse_eq_ok hlines
    rw [hp]
    exact Returns.ofExcept rfl trivial
  case h_2 => exact Returns.pure trivial

theorem statistics_raises (hs : k.Overflows capture) : Raises (k.statistics capture) := by
  obtain ⟨hk, hline⟩ := hs
  obtain ⟨count, hp⟩ := Statistics.parse_eq_error hline
  unfold statistics
  rw [hk]
  dsimp only
  rw [hp]
  exact Raises.ofExcept rfl

theorem keeps_statistics (k : Checker) (capture : Capture) :
    Keeps view (k.statistics capture) := by
  unfold statistics
  split
  · exact Keeps.ofExcept _
  · exact Keeps.pure _

theorem logStatistics_returns (name : String) (stats : List (String × Int)) :
    Returns (logStatistics name stats) fun _ => True := by
  unfold logStatistics
  split
  · exact Returns.pure trivial
  · split
    · exact (Action.returns_log _ _ _).seq fun _ => Action.returns_log _ _ _
    · exact Action.returns_log _ _ _

theorem keeps_logStatistics (hv : LogFree view) (name : String) (stats : List (String × Int)) :
    Keeps view (logStatistics name stats) := by
  refine Keeps.ite (Keeps.pure ()) ?_
  split
  · exact (keeps_log hv _ _ _).bind fun _ => keeps_log hv _ _ _
  · exact keeps_log hv _ _ _

/-! ## From the verdict to the outcome -/

/-- What is left of the work on a job once its verdict is known. -/
def conclude (k : Checker) (job : Job) (output : Path) (capture : Capture) (verdict : Verdict)
    (expect : Expectation) : Action Outcome := do
  let ranks ← Action.ofExcept k.backend.ranks
  Importance.echo ranks ⟨expect, job.displayName⟩ rankApplication k.config.verbose
    (capture.lines k.backend.tool.echoStreams)
  let stats ← k.statistics capture
  logStatistics job.displayName stats
  let counterexamples ← Counterexample.collect k.backend k.config output
  return ⟨job.displayName, job.entrySymbol, verdict, expect, none, stats, 0,
    counterexamples.map Path.text⟩

/-- What is logged about a job without a verdict. -/
def warnUndecided (k : Checker) (job : Job) (verdict : Verdict) : Action Unit :=
  if verdict = .unknown then
    Action.log .warning .backend
      (job.displayName ++ ": unable to determine a verdict from " ++ k.backendName ++ " output")
  else return ()

theorem evaluate_eq (k : Checker) (job : Job) (output : Path) (capture : Capture) :
    k.evaluate job output capture = k.judge capture job.displayName >>= fun p =>
      k.warnUndecided job p.1 >>= fun _ => k.conclude job output capture p.1 p.2 := by
  unfold evaluate
  refine bind_congr fun p => ?_
  obtain ⟨v, e⟩ := p
  unfold warnUndecided
  dsimp only
  by_cases hv : v = .unknown
  · rw [if_pos hv, if_pos hv]
    rfl
  · rw [if_neg hv, if_neg hv, pure_bind]
    rfl

theorem warnUndecided_returns (k : Checker) (job : Job) (verdict : Verdict) :
    Returns (k.warnUndecided job verdict) fun _ => True := by
  unfold warnUndecided
  split
  · exact Action.returns_log _ _ _
  · exact Returns.pure trivial

theorem keeps_warnUndecided (hv : LogFree view) (k : Checker) (job : Job) (verdict : Verdict) :
    Keeps view (k.warnUndecided job verdict) :=
  Keeps.ite (keeps_log hv _ _ _) (Keeps.pure ())

/-- The outcome is the job's, with this verdict and this expectation and without an error. -/
def IsOutcome (job : Job) (p : Verdict × Expectation) (o : Outcome) : Prop :=
  o.displayName = job.displayName ∧ o.entrySymbol = job.entrySymbol ∧ o.verdict = p.1 ∧
    o.expectation = p.2 ∧ o.error = none

theorem ranks_returns (hk : k.backend.IsVerifier) :
    Returns (Action.ofExcept k.backend.ranks) fun _ => True :=
  Returns.ofExcept hk.ranks_eq trivial

theorem conclude_returns (hk : k.backend.IsVerifier) (hs : ¬ k.Overflows capture)
    (ho : k.backend = .klee → ¬ Counterexample.Unsearchable output) (p : Verdict × Expectation) :
    Returns (k.conclude job output capture p.1 p.2) (IsOutcome job p) :=
  (ranks_returns hk).seq fun _ =>
    Importance.echo_returns.seq fun _ => (statistics_returns hs).seq fun _ =>
      (logStatistics_returns _ _).seq fun _ => (Counterexample.collect_returns ho).seq fun _ =>
        Returns.pure ⟨rfl, rfl, rfl, rfl, rfl⟩

theorem conclude_raises_of_overflows (hk : k.backend.IsVerifier) (hs : k.Overflows capture)
    (p : Verdict × Expectation) : Raises (k.conclude job output capture p.1 p.2) :=
  Raises.after (ranks_returns hk) fun _ _ =>
    Raises.after Importance.echo_returns fun _ _ => (statistics_raises hs).bind _

theorem conclude_raises_of_unsearchable (hk : k.backend = .klee) (hs : ¬ k.Overflows capture)
    (ho : Counterexample.Unsearchable output) (p : Verdict × Expectation) :
    Raises (k.conclude job output capture p.1 p.2) := by
  have hv : k.backend.IsVerifier := Backend.isVerifier_iff.mpr (.inl hk)
  have hc : Raises (Counterexample.collect k.backend k.config output) := by
    rw [hk]
    exact Counterexample.collect_raises ho
  exact Raises.after (ranks_returns hv) fun _ _ =>
    Raises.after Importance.echo_returns fun _ _ => Raises.after (statistics_returns hs) fun _ _ =>
      Raises.after (logStatistics_returns _ _) fun _ _ => hc.bind _

theorem conclude_yields (k : Checker) (job : Job) (output : Path) (capture : Capture)
    (p : Verdict × Expectation) :
    Yields (k.conclude job output capture p.1 p.2) (IsOutcome job p) :=
  Yields.bind fun _ => Yields.bind fun _ => Yields.bind fun _ => Yields.bind fun _ =>
    Yields.bind fun _ => Yields.pure ⟨rfl, rfl, rfl, rfl, rfl⟩

theorem keeps_deeds_evaluate (k : Checker) (job : Job) (output : Path) (capture : Capture) :
    Keeps World.deeds (k.evaluate job output capture) := by
  rw [evaluate_eq]
  refine (keeps_judge logFree_deeds k capture _).bind fun p =>
    (keeps_warnUndecided logFree_deeds k job p.1).bind fun _ => ?_
  exact (Keeps.ofExcept _).bind fun _ => Importance.keeps_deeds_echo.bind fun _ =>
    (k.keeps_statistics capture).bind fun _ => (keeps_logStatistics logFree_deeds _ _).bind fun _ =>
      (Counterexample.keeps_collect logFree_deeds _ _ _).bind fun _ => Keeps.pure _

/-- What evaluation makes of a capture, if nothing fails: an outcome with the judgement. -/
theorem evaluate_returns (hk : k.backend.IsVerifier) (hs : ¬ k.Overflows capture)
    (ho : k.backend = .klee → ¬ Counterexample.Unsearchable output) :
    Returns (k.evaluate job output capture)
      (IsOutcome job (k.judgement capture job.displayName)) := by
  rw [evaluate_eq]
  refine (judge_returns hk capture _).bind ?_
  rintro _ rfl
  exact (warnUndecided_returns _ _ _).seq fun _ => conclude_returns hk hs ho _

theorem evaluate_raises (hk : k.backend.IsVerifier)
    (hf : k.Overflows capture ∨ k.backend = .klee ∧ Counterexample.Unsearchable output) :
    Raises (k.evaluate job output capture) := by
  rw [evaluate_eq]
  refine Raises.after (judge_returns hk capture _) fun p _ =>
    Raises.after (warnUndecided_returns _ _ _) fun _ _ => ?_
  by_cases hs : k.Overflows capture
  · exact conclude_raises_of_overflows hk hs p
  · obtain ⟨hk', ho⟩ := hf.resolve_left hs
    exact conclude_raises_of_unsearchable hk' hs ho p

end Checker

end Assay
