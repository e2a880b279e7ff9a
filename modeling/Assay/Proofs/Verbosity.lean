import Assay.Proofs.Halves
import Mathlib.Data.List.Basic

/-!
# Verbosity changes no result

How much is told, and at which level the log begins, is for whoever reads along.
`Config.SameButTold` relates configurations that differ in nothing else, and
`verbosity_changes_no_result` says that a verifier's work on a job comes to the same under both: the
same outcome or the same fault, the same processes, the same disk. Only the lines that are shown
depend on the verbosity. They are some of the lines that the process has written to the streams that
are shown, in their order, and a higher verbosity only adds lines to them.

That the shown lines grow with the verbosity rests on the rank of a line being one number,
`Importance.shown_mono`. The verbosity is read in one place only, `Importance.echo`, and whatever
stands before it and after it prints nothing; `Action.Prints` takes this through the second half of
the work.
-/

namespace Assay

open Assay.Action (Keeps Returns Tracks logFree_surface)

/-- The configurations differ in nothing but how much is told and logged. -/
def Config.SameButTold (c c' : Config) : Prop :=
  ∃ verbose quiet logLevel,
    c' = { c with verbose := verbose, quiet := quiet, logLevel := logLevel }

/-! ## What an action prints -/

namespace Action

variable {α β ι : Type} {x : Action α} {f : α → Action β} {P : α → Prop} {s t : List String}

/-- Every run of the action prints these texts. -/
def Prints (x : Action α) (s : List String) : Prop :=
  ∀ h w, (x.run h w).2.output = w.output ++ s

namespace Prints

theorem of_keeps (hx : Keeps World.surface x) : Prints x [] := by
  intro h w
  rw [List.append_nil]
  exact congrArg Prod.fst (hx h w)

/-- A part that always returns, and one that follows. -/
theorem bind (hx : Prints x s) (hr : Returns x P) (hf : ∀ a, P a → Prints (f a) t) :
    Prints (x >>= f) (s ++ t) := by
  intro h w
  obtain ⟨a, w₁, hrun, ha⟩ := hr.run h w
  have hw := hx h w
  rw [hrun] at hw
  rw [bind_of_ok hrun, hf a ha h w₁, hw, List.append_assoc]

/-- Whatever comes of the first part, what follows prints nothing. -/
theorem before (hx : Prints x s) (hf : ∀ a, Keeps World.surface (f a)) :
    Prints (x >>= f) s := by
  intro h w
  have hw := hx h w
  rcases hrun : x.run h w with ⟨e | a, w₁⟩ <;> rw [hrun] at hw
  · rw [bind_of_error hrun]
    exact hw
  · rw [bind_of_ok hrun]
    exact (congrArg Prod.fst (hf a h w₁)).trans hw

/-- What comes before prints nothing. -/
theorem after (hx : Keeps World.surface x) (hr : Returns x P) (hf : ∀ a, P a → Prints (f a) t) :
    Prints (x >>= f) t :=
  (of_keeps hx).bind hr hf

theorem forM_printLine (lines : List String) :
    Prints (lines.forM printLine) (lines.map fun line => line ++ "\n") := by
  intro h w
  rw [forM_printLine_run]

end Prints

end Action

open Assay.Action (Prints)

/-! ## What is shown -/

namespace Importance

variable {rules : List RankRule} {ctx : LineContext} {default v v' : Int} {lines : List String}

theorem shown_sublist : (shown rules ctx default v lines).Sublist lines :=
  List.filter_sublist

/-- **A higher verbosity only adds lines**: a line has one rank, and is shown at every verbosity
above it. -/
theorem shown_mono (hv : v ≤ v') :
    (shown rules ctx default v lines).Sublist (shown rules ctx default v' lines) := by
  refine List.monotone_filter_right lines fun line hline => ?_
  rw [decide_eq_true_eq] at hline ⊢
  exact Int.lt_of_lt_of_le hline hv

theorem prints_echo : Prints (echo rules ctx default v lines)
    ((shown rules ctx default v lines).map fun line => line ++ "\n") :=
  .after (Classification.keeps_logNotes logFree_surface _) (Classification.logNotes_returns _)
    fun _ _ => .forM_printLine _

end Importance

namespace Checker

variable {k : Checker} {c' : Config} {job : Job} {output : Path} {capture : Capture} {h : Host}
  {w w' : World}

/-- The lines of a capture that are shown at this verbosity. -/
def shown (k : Checker) (verbose : Int) (job : Job) (capture : Capture) : List String :=
  Importance.shown k.backend.tool.ranks
    ⟨(k.judgement capture job.displayName).2, job.displayName⟩ rankApplication verbose
    (capture.lines k.backend.tool.echoStreams)

/-- **The second half prints the lines that are shown**, even if it fails afterwards. -/
theorem prints_evaluate (hk : k.backend.IsVerifier) (job : Job) (output : Path)
    (capture : Capture) :
    Prints (k.evaluate job output capture)
      ((k.shown k.config.verbose job capture).map fun line => line ++ "\n") := by
  rw [evaluate_eq]
  refine .after (keeps_judge logFree_surface k _ _) (judge_returns hk _ _) ?_
  rintro _ rfl
  refine .after (keeps_warnUndecided logFree_surface k _ _) (k.warnUndecided_returns _ _)
    fun _ _ => ?_
  refine .after (Keeps.ofExcept _) (Returns.ofExcept hk.ranks_eq rfl) ?_
  rintro _ rfl
  refine Importance.prints_echo.before fun _ => (k.keeps_statistics _).bind fun stats => ?_
  exact (keeps_logStatistics logFree_surface _ _).bind fun _ =>
    (Counterexample.keeps_collect logFree_surface _ _ _).bind fun _ => Keeps.pure _

/-- How much is told plays no part in the second half but for what is shown. -/
theorem tracks_evaluate_told (hk : k.backend.IsVerifier) (hc : k.config.SameButTold c') (job : Job)
    (output : Path) (capture : Capture) :
    Tracks h Eq (k.evaluate job output capture)
      ((⟨k.backend, c', k.script⟩ : Checker).evaluate job output capture) := by
  obtain ⟨verbose, quiet, logLevel, rfl⟩ := hc
  refine tracks_evaluate hk (c := k.config)
    (.of_respects (Counterexample.respects_collect k.backend k.config output)) ?_
  rintro v e stats l _ rfl
  rfl

/-- The lines of a job that may be shown: those that its process has written to the streams that are
shown, if it has come to an end. -/
inductive Audible (k : Checker) (job : Job) (h : Host) (w : World) : List String → Prop where
  | ended {l : Launch} (hl : k.Launches job h w l) :
    Audible k job h w ((l.captured k).lines k.backend.tool.echoStreams)
  | unended (hn : ∀ l, ¬ k.Launches job h w l) : Audible k job h w []

theorem exists_audible (k : Checker) (job : Job) (h : Host) (w : World) :
    ∃ lines, k.Audible job h w lines := by
  by_cases hl : ∃ l, k.Launches job h w l
  · obtain ⟨l, hl⟩ := hl
    exact ⟨_, .ended hl⟩
  · exact ⟨[], .unended fun l hl' => hl ⟨l, hl'⟩⟩

/-- **Verbosity changes no result.** Under configurations that differ in nothing but how much is
told, a verifier's work on a job ends alike, has started the same processes and leaves the same
disk. What is shown are some of the lines that may be shown, and a verbosity that is no lower shows
no fewer. -/
theorem verbosity_changes_no_result (hk : k.backend.IsVerifier) (hc : k.config.SameButTold c')
    (job : Job) (h : Host) (w : World) :
    let k' : Checker := ⟨k.backend, c', k.script⟩
    ((k.verify job).run h w).1 = ((k'.verify job).run h w).1 ∧
      ((k.verify job).run h w).2.calls = ((k'.verify job).run h w).2.calls ∧
      ((k.verify job).run h w).2.disk = ((k'.verify job).run h w).2.disk ∧
      ∃ lines shown shown' : List String, k.Audible job h w lines ∧
        ((k.verify job).run h w).2.output = w.output ++ shown.map (fun line => line ++ "\n") ∧
        ((k'.verify job).run h w).2.output = w.output ++ shown'.map (fun line => line ++ "\n") ∧
        shown.Sublist lines ∧ shown'.Sublist lines ∧
        (k.config.verbose ≤ c'.verbose → shown.Sublist shown') := by
  intro k'
  have hakin : Akin k.backend job k.config c' := by
    obtain ⟨verbose, quiet, logLevel, rfl⟩ := hc
    refine akin_of_verifier hk ?_ ?_ ?_ ?_ ?_ ?_ job <;> rfl
  have hsame : k.capturing job = k'.capturing job := capturing_congr hakin
  rw [verify_eq_capturing hk, verify_eq_capturing (k := k') hk, ← hsame]
  rcases hr : (k.capturing job).run h w with ⟨e | ⟨output, capture⟩, w₁⟩
  all_goals
    have houtput : w₁.output = w.output := (k.keeps_output_capturing job).of_run hr
  · rw [Action.bind_of_error hr, Action.bind_of_error hr]
    obtain ⟨lines, hlines⟩ := k.exists_audible job h w
    refine ⟨rfl, rfl, rfl, lines, [], [], hlines, ?_, ?_, List.nil_sublist _, List.nil_sublist _,
      fun _ => List.nil_sublist _⟩
    all_goals rw [List.map_nil, List.append_nil, houtput]
  · rw [Action.bind_of_ok hr, Action.bind_of_ok hr]
    obtain ⟨l, hl, rfl, rfl⟩ := capturing_ok hr
    obtain ⟨halike, hdeeds⟩ := tracks_evaluate_told hk hc job l.output (l.captured k) w₁ w₁ rfl
    refine ⟨halike.eq, (calls_of_deeds hdeeds).symm, (disk_of_deeds hdeeds).symm,
      _, k.shown k.config.verbose job (l.captured k), k.shown c'.verbose job (l.captured k),
      .ended hl, ?_, ?_, Importance.shown_sublist, Importance.shown_sublist, Importance.shown_mono⟩
    · rw [prints_evaluate hk job l.output _ h w₁, houtput]
    · rw [prints_evaluate (k := k') hk job l.output _ h w₁, houtput]
      rfl

/-- KLEE, told with all details. -/
def toldKlee : Checker := ⟨.klee, { sampleKlee.config with verbose := 4, logLevel := "INFO" }, none⟩

/-- A host on which every process reports a failed assertion. -/
def asserting : Host := saying (Text.encode "assertion failed\n")

theorem verbosity_changes_no_result_sample :
    sampleKlee.backend.IsVerifier ∧ sampleKlee.config.SameButTold toldKlee.config ∧
      sampleKlee.config.verbose ≤ toldKlee.config.verbose ∧
      ((sampleKlee.verify sampleJob).run asserting (World.begin sampleDisk)).1 =
        ((toldKlee.verify sampleJob).run asserting (World.begin sampleDisk)).1 ∧
      ∃ shown shown' : List String, shown.Sublist shown' ∧
        ((sampleKlee.verify sampleJob).run asserting (World.begin sampleDisk)).2.output =
          (World.begin sampleDisk).output ++ shown.map (fun line => line ++ "\n") ∧
        ((toldKlee.verify sampleJob).run asserting (World.begin sampleDisk)).2.output =
          (World.begin sampleDisk).output ++ shown'.map (fun line => line ++ "\n") := by
  have htold : sampleKlee.config.SameButTold toldKlee.config := ⟨4, false, "INFO", rfl⟩
  have hle : sampleKlee.config.verbose ≤ toldKlee.config.verbose := by decide
  obtain ⟨hresult, -, -, -, shown, shown', -, hx, hy, -, -, hshown⟩ :=
    verbosity_changes_no_result sampleKlee_isVerifier htold sampleJob asserting
      (World.begin sampleDisk)
  exact ⟨sampleKlee_isVerifier, htold, hle, hresult, shown, shown', hshown hle, hx, hy⟩

end Checker

end Assay
