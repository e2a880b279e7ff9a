import Assay.Proofs.Tandem
import Assay.Proofs.Traces

/-!
# Before and after the end of the process

A verifier's work on a job has two halves. The first, `Checker.capturing`, ends with the process: it
prepares the place for results, runs the command and hands over what was captured. The second is
the evaluation of this.

Each half depends on little. The first is the same for checkers that are `Akin` on the job, which
leaves room for different configurations (`capturing_congr`). The second reads two numbers of the
configuration, how much is shown and how much is replayed (`evaluate_congr`). Together this is
`verify_congr`. Nothing is printed in the first half, and it comes to a capture only if the job has
been launched: `capturing_ok`.
-/

namespace Assay

open Assay.Action (Keeps Respects SameDeeds Tracks logFree_deeds logFree_surface silent_sameDeeds)

namespace Action

variable {α β : Type}

/-- Two sequences agree if they go on alike after each value that the first part can end with. -/
theorem bind_congr_of_yields {x : Action α} {P : α → Prop} {f g : α → Action β} (hx : Yields x P)
    (hfg : ∀ a, P a → f a = g a) : x >>= f = x >>= g := by
  refine ext fun h w => ?_
  rcases hr : x.run h w with ⟨e | a, w₁⟩
  · rw [bind_of_error hr, bind_of_error hr]
  · rw [bind_of_ok hr, bind_of_ok hr, hfg a (hx h w a w₁ hr)]

end Action

namespace Command

variable {c : Command} {h : Host} {w w' : World} {capture : Capture}

/-- What a command hands over is captured of a process that has ended. -/
theorem run_ok (hr : c.run.run h w = (.ok capture, w')) :
    c.limit ≠ some .nothing ∧ ∃ disk code out err overruns,
      h.behave w.calls c.call w.disk = (disk, .ended code out err overruns) ∧
        capture = c.capture code out err overruns := by
  unfold run at hr
  split at hr
  · cases hr
  case h_2 program arguments _ =>
    obtain ⟨_, w₁, hann, hr⟩ := Action.bind_ok_iff.mp hr
    obtain ⟨_, w₂, hlimit, hr⟩ := Action.bind_ok_iff.mp hr
    obtain ⟨hlimit, rfl⟩ := Action.ofExcept_ok_iff.mp hlimit
    have hd := (keeps_announce logFree_deeds c program).of_run hann
    have hl : c.limit ≠ some .nothing := by
      intro hl
      rw [needLimit, if_pos hl] at hlimit
      cases hlimit
    rcases hb : h.behave w₁.calls c.call w₁.disk with ⟨disk, f | f | ⟨code, out, err, overruns⟩⟩
    all_goals
      rw [Action.bind_of_ok (spawn_run hb)] at hr
      rw [calls_of_deeds hd, disk_of_deeds hd] at hb
    · cases hr
    · cases hr
    · obtain ⟨_, w₃, -, hr⟩ := Action.bind_ok_iff.mp hr
      obtain ⟨_, w₄, -, hr⟩ := Action.bind_ok_iff.mp hr
      cases hr
      exact ⟨hl, disk, code, out, err, overruns, hb, rfl⟩

end Command

namespace Counterexample

variable {h : Host}

theorem respects_matching (output : Path) (tail : String) :
    Respects h SameDeeds (matching output tail) :=
  .ite (.fail _) (.ite (.pure _) (Action.respects_disk.bind fun _ => .pure _))

theorem respects_failures (output : Path) : Respects h SameDeeds (failures output) := by
  refine (respects_matching _ _).bind fun found => .bind ?_ fun _ => .pure _
  exact .of_talk silent_sameDeeds (Action.returns_log _ _ _) (Action.keeps_deeds_log _ _ _)

theorem respects_collect (b : Backend) (c : Config) (output : Path) :
    Respects h SameDeeds (collect b c output) := by
  unfold collect
  split
  · exact .ite (respects_matching _ _) ((respects_failures _).bind fun _ => .pure _)
  · exact .pure _

end Counterexample

namespace Checker

variable {k k' : Checker} {job : Job} {output : Path} {capture : Capture} {h : Host} {w w' : World}

/-! ## The first half -/

/-- The work on a job up to the end of its process. -/
def capturing (k : Checker) (job : Job) : Action (Path × Capture) := do
  Action.start job
  let output ← OutputDir.prepare k.backend k.config job
  k.announce job output
  let words ← Action.ofExcept ((k.backend.invocation k.config job output).mapError .job)
  let capture ← (k.command words).run
  return (output, capture)

/-- **The work of a verifier has two halves.** -/
theorem verify_eq_capturing (hk : k.backend.IsVerifier) (job : Job) :
    k.verify job = k.capturing job >>= fun c => k.evaluate job c.1 c.2 := by
  rw [verify_eq hk]
  unfold capturing verifyWithTool
  simp only [bind_assoc, pure_bind, execute_eq hk]

/-- Under both configurations the job has the same place for its results, the same command and the
same time limit. -/
structure Akin (b : Backend) (job : Job) (c c' : Config) : Prop where
  outputDir : b.outputDir c job = b.outputDir c' job
  invocation : b.invocation c job (b.outputDir c job) = b.invocation c' job (b.outputDir c job)
  jobTimeout : c.jobTimeout = c'.jobTimeout

variable {b : Backend} {c c' : Config} {script : Option Path}

/-- All that verifiers read of the configuration. -/
theorem akin_of_verifier (hb : b.IsVerifier) (hmanifest : c.manifestPath = c'.manifestPath)
    (hflags : c.backendFlags = c'.backendFlags)
    (hreplace : c.replaceBackendFlags = c'.replaceBackendFlags)
    (hcommon : c.commonDir = c'.commonDir) (hargs : c.args = c'.args)
    (hlimit : c.jobTimeout = c'.jobTimeout) (job : Job) : Akin b job c c' where
  outputDir := by
    unfold Backend.outputDir Config.projectDir
    rw [hmanifest]
  invocation := by
    have hrequirements : b.requirements c = b.requirements c' := by
      unfold Backend.requirements Seahorn.commonDir?
      rw [hcommon]
    have harguments : b.arguments c job = b.arguments c' job := by
      unfold Backend.arguments Klee.arguments
      rcases Backend.isVerifier_iff.mp hb with rfl | rfl | rfl
      · rw [hargs]
      · rw [hcommon]
      · rfl
    unfold Backend.invocation Backend.userFlags
    rw [hrequirements, harguments, hflags, hreplace]
  jobTimeout := hlimit

/-- **The first half** is the same under configurations that are akin. -/
theorem capturing_congr (ha : Akin b job c c') :
    capturing ⟨b, c, script⟩ job = capturing ⟨b, c', script⟩ job := by
  have hprepare : OutputDir.prepare b c job = OutputDir.prepare b c' job := by
    unfold OutputDir.prepare
    rw [ha.outputDir]
  have hcommand : command ⟨b, c, script⟩ = command ⟨b, c', script⟩ := by
    unfold command
    rw [ha.jobTimeout]
  refine bind_congr fun _ => ?_
  show OutputDir.prepare b c job >>= _ = OutputDir.prepare b c' job >>= _
  rw [← hprepare]
  refine Action.bind_congr_of_yields (OutputDir.yields_prepare b c job) ?_
  rintro _ rfl
  refine bind_congr fun _ => ?_
  show Action.ofExcept ((b.invocation c job (b.outputDir c job)).mapError .job) >>= _ =
    Action.ofExcept ((b.invocation c' job (b.outputDir c job)).mapError .job) >>= _
  rw [ha.invocation, hcommand]

/-- **The second half** reads two numbers of the configuration. -/
theorem evaluate_congr (hv : c.verbose = c'.verbose) (hr : c.replay = c'.replay) :
    evaluate ⟨b, c, script⟩ job output capture = evaluate ⟨b, c', script⟩ job output capture := by
  have hcollect : Counterexample.collect b c output = Counterexample.collect b c' output := by
    unfold Counterexample.collect
    rw [hr]
  unfold evaluate
  dsimp only
  rw [hv, hcollect]
  rfl

/-- **A verifier's work on a job** is the same under configurations that are akin, if as much is
shown and replayed. -/
theorem verify_congr (hb : b.IsVerifier) (ha : Akin b job c c') (hv : c.verbose = c'.verbose)
    (hr : c.replay = c'.replay) : verify ⟨b, c, script⟩ job = verify ⟨b, c', script⟩ job := by
  rw [verify_eq_capturing (k := ⟨b, c, script⟩) hb, verify_eq_capturing (k := ⟨b, c', script⟩) hb,
    capturing_congr ha]
  exact bind_congr fun _ => evaluate_congr hv hr

/-- The second half under two configurations differs in what is collected and in what is shown. -/
theorem tracks_evaluate {Q : List Path → List Path → Prop} {R : Outcome → Outcome → Prop}
    (hb : b.IsVerifier)
    (hcollect : Tracks h Q (Counterexample.collect b c output)
      (Counterexample.collect b c' output))
    (hR : ∀ v e stats l l', Q l l' →
      R ⟨job.displayName, job.entrySymbol, v, e, none, stats, 0, l.map Path.text⟩
        ⟨job.displayName, job.entrySymbol, v, e, none, stats, 0, l'.map Path.text⟩) :
    Tracks h R (evaluate ⟨b, c, script⟩ job output capture)
      (evaluate ⟨b, c', script⟩ job output capture) := by
  have hjudge : Respects h SameDeeds (judge ⟨b, c, script⟩ capture job.displayName) :=
    .of_returns silent_sameDeeds (judge_returns (k := ⟨b, c, script⟩) hb _ _)
      (keeps_judge logFree_deeds _ _ _)
  have hstatistics : Respects h SameDeeds (statistics ⟨b, c, script⟩ capture) := by
    unfold statistics
    split
    · exact .ofExcept _
    · exact .pure _
  rw [evaluate_eq, evaluate_eq]
  refine Tracks.after hjudge fun p => Tracks.after (x := warnUndecided ⟨b, c, script⟩ job p.1) ?_
    fun _ => ?_
  · exact .of_talk silent_sameDeeds (warnUndecided_returns _ _ _)
      (keeps_warnUndecided logFree_deeds _ _ _)
  refine Tracks.after (.ofExcept b.ranks) fun ranks => Tracks.bind (Q := fun _ _ => True) ?_
    fun _ _ _ => Tracks.after hstatistics fun stats => Tracks.after ?_ fun _ => ?_
  · exact .talk Importance.echo_returns Importance.keeps_deeds_echo Importance.echo_returns
      Importance.keeps_deeds_echo
  · exact .of_talk silent_sameDeeds (logStatistics_returns _ _)
      (keeps_logStatistics logFree_deeds _ _)
  · exact hcollect.bind fun l l' hq => Tracks.pure (hR _ _ _ l l' hq)

/-! ## What the first half does -/

theorem respects_capturing (k : Checker) (job : Job) :
    Respects h SameDeeds (k.capturing job) := by
  refine (Action.respects_start job).bind fun _ => .bind (OutputDir.respects_prepare _ _ _)
    fun output => .bind ?_ fun _ => .bind (.ofExcept _) fun words =>
      (Command.respects_run _).bind fun _ => .pure _
  exact .of_talk silent_sameDeeds (k.announce_returns _ _) (keeps_announce logFree_deeds k _ _)

/-- Nothing is printed before the process has ended. -/
theorem keeps_output_capturing (k : Checker) (job : Job) :
    Keeps World.output (k.capturing job) := by
  have houtput : Keeps World.output (Action.start job) := fun _ _ => rfl
  refine houtput.bind fun _ => Keeps.output_of_surface ?_
  exact (OutputDir.keeps_surface_prepare _ _ _).bind fun _ =>
    (keeps_announce logFree_surface k _ _).bind fun _ => (Keeps.ofExcept _).bind fun _ =>
      (Command.keeps_surface_run _).bind fun _ => Keeps.pure _

/-- **What is captured** is the output of a launch. -/
theorem capturing_ok (hr : (k.capturing job).run h w = (.ok (output, capture), w')) :
    ∃ l, k.Launches job h w l ∧ output = l.output ∧ capture = l.captured k := by
  unfold capturing at hr
  rw [Action.bind_of_ok (Action.start_run job h w)] at hr
  obtain ⟨output', w₁, hprep, hr⟩ := Action.bind_ok_iff.mp hr
  obtain ⟨_, w₂, hann, hr⟩ := Action.bind_ok_iff.mp hr
  obtain ⟨words, _, hwords, hr⟩ := Action.bind_ok_iff.mp hr
  obtain ⟨hbuilt, rfl⟩ := Action.ofExcept_ok_iff.mp hwords
  obtain ⟨capture', w₃, hrun, hr⟩ := Action.bind_ok_iff.mp hr
  cases hr
  have hd := (keeps_announce logFree_deeds k job output).of_run hann
  obtain ⟨hlimit, disk, code, out, err, overruns, hb, rfl⟩ := Command.run_ok hrun
  rw [calls_of_deeds hd, disk_of_deeds hd] at hb
  exact ⟨⟨output, words, w₁, disk, code, out, err, overruns⟩,
    ⟨hprep, mapError_ok_iff.mp hbuilt, hlimit, hb⟩, rfl, rfl⟩

end Checker

end Assay
