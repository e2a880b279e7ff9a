import Assay.Proofs.Call
import Assay.Proofs.Command
import Assay.Proofs.Places

/-!
# A job whose process has been started

Once the process of a job has been started, little is left that can fail. `Starts` says that a job
has come so far. The host may not be able to wait for the process, since the job's limit is no span
of time that a system waits. If it can, the process ends, `Launches`, and `Aborts` is what can still
go wrong: the script and the place for results may be where no file can be, and KLEE may report a
number of too many digits. Everything else that a tool can do ends in an outcome, whose verdict is
what classification makes of the output; this is `verify_of_starts`.

`verify_started` and `verify_yields` hold for all backends and however a job ends: exactly one job
is taken up, and an outcome is called after it.
-/

namespace Assay

open Assay.Action (Keeps Raises Returns Yields)

namespace Text

theorem lines_of_forall {cs : List Char} (hb : ∀ c ∈ cs, isLineBreak c = false) (hne : cs ≠ []) :
    lines cs = [cs] := by
  induction cs with
  | nil => exact absurd rfl hne
  | cons c rest ih =>
    have hc := hb c List.mem_cons_self
    unfold lines
    split
    case h_1 => cases ‹c :: rest = []›
    case h_2 heq =>
      rw [List.cons.injEq] at heq
      rw [heq.1] at hc
      cases hc
    case h_3 c' rest' _ heq =>
      cases heq
      rw [hc, if_neg Bool.false_ne_true]
      by_cases hrest : rest = []
      · rw [hrest, lines_nil]
      · rw [ih (fun d hd => hb d (List.mem_cons_of_mem c hd)) hrest]

end Text

namespace Checker

variable {k : Checker} {job : Job} {h : Host} {w w' : World}

/-- What a job has got when its process has been started: the place for its results, its command, the
world in which the process was started, and what the host made of it. -/
structure Start where
  output : Path
  words : List String
  prepared : World
  disk : Disk
  ending : Ending

/-- The place for a job's results was prepared, its command was built, and the process was started,
with a number for its limit if there is one. -/
structure Starts (k : Checker) (job : Job) (h : Host) (w : World) (s : Start) : Prop where
  prepared : (OutputDir.prepare k.backend k.config job).run h
    { w with started := w.started ++ [job] } = (.ok s.output, s.prepared)
  built : k.backend.invocation k.config job s.output = .ok s.words
  limited : k.config.jobTimeout ≠ some .nothing
  behaved : h.behave s.prepared.calls (k.command s.words).call s.prepared.disk = (s.disk, s.ending)
  begun : s.ending.isStarted = true

/-- A start whose process has ended. -/
structure Launch where
  output : Path
  words : List String
  prepared : World
  disk : Disk
  code : Int
  stdout : Text.Bytes
  stderr : Text.Bytes
  overruns : Bool

/-- What is captured of the process. -/
def Launch.captured (l : Launch) (k : Checker) : Capture :=
  (k.command l.words).capture l.code l.stdout l.stderr l.overruns

def Launch.start (l : Launch) : Start :=
  ⟨l.output, l.words, l.prepared, l.disk, .ended l.code l.stdout l.stderr l.overruns⟩

theorem Launch.eq_of_start {l l' : Launch} (hs : l.start = l'.start) : l = l' := by
  cases l
  cases l'
  cases hs
  rfl

/-- The process was started in the same way, and has ended. -/
structure Launches (k : Checker) (job : Job) (h : Host) (w : World) (l : Launch) : Prop where
  prepared : (OutputDir.prepare k.backend k.config job).run h
    { w with started := w.started ++ [job] } = (.ok l.output, l.prepared)
  built : k.backend.invocation k.config job l.output = .ok l.words
  limited : k.config.jobTimeout ≠ some .nothing
  ended : h.behave l.prepared.calls (k.command l.words).call l.prepared.disk =
    (l.disk, .ended l.code l.stdout l.stderr l.overruns)

theorem Launches.starts {l : Launch} (hl : k.Launches job h w l) : k.Starts job h w l.start :=
  ⟨hl.prepared, hl.built, hl.limited, hl.ended, rfl⟩

theorem Starts.launches {l : Launch} (hs : k.Starts job h w l.start) : k.Launches job h w l :=
  ⟨hs.prepared, hs.built, hs.limited, hs.behaved⟩

/-- A process that has been started is one that the host cannot wait for, or it ends. -/
theorem Starts.cases {s : Start} (hs : k.Starts job h w s) :
    (∃ f, s.ending = .abandoned f) ∨ ∃ l : Launch, s = l.start := by
  obtain ⟨output, words, prepared, disk, f | f | ⟨code, out, err, overruns⟩⟩ := s
  · cases hs.begun
  · exact .inl ⟨f, rfl⟩
  · exact .inr ⟨⟨output, words, prepared, disk, code, out, err, overruns⟩, rfl⟩

/-- What makes a job fail although its process has ended. -/
inductive Aborts (k : Checker) (l : Launch) : Prop where
  /-- The script is at a place where no file can be. No run begins such a script. -/
  | script (p : Path) (hp : p ∈ k.script) (hn : Disk.hasNull p.text = true)
  /-- KLEE reports a number that has too many digits. -/
  | number (hs : k.Overflows (l.captured k))
  /-- KLEE's tests would be where no file can be. -/
  | place (hk : k.backend = .klee) (ho : Counterexample.Unsearchable l.output)

/-- What makes a job fail although its process has been started. -/
inductive Fails (k : Checker) (s : Start) : Prop where
  /-- The host cannot wait for the process, since its limit is no span of time. -/
  | limit (f : CallFault) (he : s.ending = .abandoned f)
  | ended (l : Launch) (hs : s = l.start) (ha : k.Aborts l)

variable {s : Start} {l : Launch}

/-- Nothing goes wrong without a script, if no number is reported and files can be at the place for
results. -/
theorem not_aborts (hscript : k.script = none)
    (hplain : ∀ line ∈ (l.captured k).lines [.stderr], Statistics.reported? line = none)
    (hparts : ∀ part ∈ Counterexample.fixedParts l.output, Disk.hasNull part = false) :
    ¬ k.Aborts l := by
  rintro (⟨p, hp, -⟩ | ⟨-, line, hline, name, digits, hreport, -⟩ | ⟨-, part, hpart, hn⟩)
  · rw [hscript] at hp
    cases hp
  · rw [hplain line hline] at hreport
    cases hreport
  · rw [hparts part hpart] at hn
    cases hn

theorem verify_eq (hk : k.backend.IsVerifier) (job : Job) :
    k.verify job = Action.start job >>= fun _ => k.verifyWithTool job := by
  unfold verify
  rcases Backend.isVerifier_iff.mp hk with hb | hb | hb <;> rw [hb]

theorem execute_eq (hk : k.backend.IsVerifier) (words : List String) :
    k.execute words = (k.command words).run := by
  unfold execute
  rcases Backend.isVerifier_iff.mp hk with hb | hb | hb <;> rw [hb]

theorem announce_returns (k : Checker) (job : Job) (output : Path) :
    Returns (k.announce job output) fun _ => True :=
  (Action.returns_log _ _ _).seq fun _ => (Action.returns_log _ _ _).seq fun _ =>
    (Action.returns_log _ _ _).seq fun _ => Action.returns_log _ _ _

theorem keeps_announce {δ : Type} {view : World → δ} (hv : Action.LogFree view) (k : Checker)
    (job : Job) (output : Path) : Keeps view (k.announce job output) :=
  (Action.keeps_log hv _ _ _).bind fun _ => (Action.keeps_log hv _ _ _).bind fun _ =>
    (Action.keeps_log hv _ _ _).bind fun _ => Action.keeps_log hv _ _ _

/-- A command always names a program. -/
theorem words_of_invocation {b : Backend} {c : Config} {words : List String}
    (hb : b.invocation c job output = .ok words) :
    ∃ arguments, words = b.tool.executable :: arguments := by
  unfold Backend.invocation at hb
  cases hr : b.requirements c with
  | error f =>
    rw [hr] at hb
    cases hb
  | ok u =>
    cases hu : Backend.userFlags c job output with
    | error f =>
      rw [hr, hu] at hb
      cases hb
    | ok flags =>
      rw [hr, hu] at hb
      cases hb
      exact ⟨_, rfl⟩

/-- A job whose process is started is what its command and the evaluation make of it, and of the
process becomes what the start says. -/
theorem verify_run_of_starts (hk : k.backend.IsVerifier) (hs : k.Starts job h w s) :
    ∃ w₁, (k.verify job).run h w =
        ((k.command s.words).run >>= k.evaluate job s.output).run h w₁ ∧
      h.behave w₁.calls (k.command s.words).call w₁.disk = (s.disk, s.ending) := by
  obtain ⟨_, w₁, hr, -⟩ := (k.announce_returns job s.output).run h s.prepared
  have hd := (keeps_announce Action.logFree_deeds k job s.output).of_run hr
  refine ⟨w₁, ?_, ?_⟩
  · rw [verify_eq hk, Action.bind_of_ok (Action.start_run job h w)]
    unfold verifyWithTool
    rw [Action.bind_of_ok hs.prepared, Action.bind_of_ok hr, hs.built]
    show ((k.execute s.words) >>= _).run h w₁ = _
    rw [execute_eq hk]
  · rw [calls_of_deeds hd, disk_of_deeds hd]
    exact hs.behaved

theorem verify_run_of_launches (hk : k.backend.IsVerifier) (hl : k.Launches job h w l) :
    ∃ w₁, (k.verify job).run h w =
        ((k.command l.words).run >>= k.evaluate job l.output).run h w₁ ∧
      h.behave w₁.calls (k.command l.words).call w₁.disk =
        (l.disk, .ended l.code l.stdout l.stderr l.overruns) :=
  verify_run_of_starts hk hl.starts

/-- A process that cannot be waited for is the end of its job. -/
theorem verify_raises_of_abandoned (hk : k.backend.IsVerifier) (hs : k.Starts job h w s)
    {f : CallFault} (he : s.ending = .abandoned f) :
    ((k.verify job).run h w).1 = .error (.call f) := by
  obtain ⟨w₁, hv, hb⟩ := verify_run_of_starts hk hs
  obtain ⟨arguments, hw⟩ := words_of_invocation hs.built
  obtain ⟨w₂, -, -, hr⟩ := (k.command s.words).run_spawned hw hs.limited h w₁
  rw [hb, he] at hr
  rw [hv, Action.bind_of_error hr]

/-- Unless something listed in `Aborts` goes wrong, the outcome is that of the judgement. -/
theorem verify_returns (hk : k.backend.IsVerifier) (hl : k.Launches job h w l)
    (ha : ¬ k.Aborts l) :
    ∃ o, ((k.verify job).run h w).1 = .ok o ∧
      IsOutcome job (k.judgement (l.captured k) job.displayName) o := by
  obtain ⟨w₁, hv, hend⟩ := verify_run_of_launches hk hl
  obtain ⟨arguments, hw⟩ := words_of_invocation hl.built
  have hp : ¬ (k.command l.words).Unrecordable := by
    rintro ⟨p, hp, hn⟩
    exact ha (.script p hp hn)
  have hs : ¬ k.Overflows (l.captured k) := fun hs => ha (.number hs)
  have ho : k.backend = .klee → ¬ Counterexample.Unsearchable l.output :=
    fun hb ho => ha (.place hb ho)
  obtain ⟨w₂, hr⟩ := Command.run_ok_of_ended hw hl.limited rfl hp hend
  rw [hv, Action.bind_of_ok hr]
  exact evaluate_returns hk hs ho h w₂

theorem verify_raises (hk : k.backend.IsVerifier) (hl : k.Launches job h w l) (ha : k.Aborts l) :
    ∃ e, ((k.verify job).run h w).1 = .error e := by
  obtain ⟨w₁, hv, hend⟩ := verify_run_of_launches hk hl
  obtain ⟨arguments, hw⟩ := words_of_invocation hl.built
  rw [hv]
  by_cases hp : (k.command l.words).Unrecordable
  · obtain ⟨e, w₂, hr⟩ := Command.run_raises_of_ended hw hl.limited hp hend
    rw [Action.bind_of_error hr]
    exact ⟨e, rfl⟩
  · obtain ⟨w₂, hr⟩ := Command.run_ok_of_ended hw hl.limited rfl hp hend
    rw [Action.bind_of_ok hr]
    -- the process is over, so only the evaluation is left to fail
    refine evaluate_raises hk ?_ h w₂
    cases ha with
    | script p hscript hn => exact absurd ⟨p, hscript, hn⟩ hp
    | number hs => exact .inl hs
    | place hb ho => exact .inr ⟨hb, ho⟩

/-- A process is killed if it takes too long and there is a limit. -/
theorem Launches.timedOut_iff (hl : k.Launches job h w l) :
    (l.captured k).timedOut = true ↔ l.overruns = true ∧ k.config.jobTimeout.isSome := by
  have hlimit := hl.limited
  show (l.overruns && (k.config.jobTimeout.bind Given.value?).isSome) = true ↔ _
  rw [Bool.and_eq_true]
  generalize k.config.jobTimeout = limit at hlimit ⊢
  rcases limit with _ | s | _
  · simp
  · simp [Given.value?]
  · exact absurd rfl hlimit

/-- A process that has ended comes to an outcome, unless something listed in `Aborts` goes wrong. -/
theorem verify_ok_iff_of_launches (hk : k.backend.IsVerifier) (hl : k.Launches job h w l) :
    (∃ o, ((k.verify job).run h w).1 = .ok o) ↔ ¬ k.Aborts l := by
  constructor
  · rintro ⟨o, ho⟩ ha
    obtain ⟨e, he⟩ := verify_raises hk hl ha
    rw [ho] at he
    cases he
  · intro ha
    obtain ⟨o, ho, -⟩ := verify_returns hk hl ha
    exact ⟨o, ho⟩

/-- The outcome has the job's names, and the verdict of classification unless the process was
killed. -/
theorem verdict_of_launches (hk : k.backend.IsVerifier) (hl : k.Launches job h w l) {o : Outcome}
    (ho : ((k.verify job).run h w).1 = .ok o) :
    o.displayName = job.displayName ∧ o.entrySymbol = job.entrySymbol ∧
      if l.overruns = true ∧ k.config.jobTimeout.isSome then o.verdict = .timeout
      else ∀ h' w', ((k.classify (l.captured k) job.displayName).run h' w').1 =
        .ok (o.verdict, o.expectation) := by
  obtain ⟨o', ho', hname, hentry, hverdict, hexpect, -⟩ :=
    verify_returns hk hl ((verify_ok_iff_of_launches hk hl).mp ⟨o, ho⟩)
  obtain rfl : o' = o := by
    rw [ho, Except.ok.injEq] at ho'
    exact ho'.symm
  refine ⟨hname, hentry, ?_⟩
  split
  case isTrue ht =>
    rw [hverdict, judgement, if_pos (hl.timedOut_iff.mpr ht)]
  case isFalse ht =>
    intro h' w'
    obtain ⟨p, hp, rfl⟩ := classify_returns hk (l.captured k) job.displayName h' w'
    rw [hp, hverdict, hexpect, judgement, if_neg (mt hl.timedOut_iff.mp ht)]

/-- **What a tool does aborts no job** whose process has been started, but for what `Fails` lists.
The host may not be able to wait for the process: if it heeds what is wrong with calls, it is the
limit that keeps it from that, and from nothing else. Otherwise the process has ended, and an outcome
comes out unless something goes wrong that `Aborts` lists. The outcome's verdict is `timeout` if the
process took too long, and what classification gives otherwise. -/
theorem verify_of_starts (hk : k.backend.IsVerifier) (hs : k.Starts job h w s) :
    ((∃ o, ((k.verify job).run h w).1 = .ok o) ↔ ¬ k.Fails s) ∧
      (h.Heeds → ((∃ f, s.ending = .abandoned f) ↔
        ∃ x ∈ (k.command s.words).seconds?, Call.limitFault? x ≠ none)) ∧
      ∀ o, ((k.verify job).run h w).1 = .ok o → ∃ l : Launch, s = l.start ∧
        o.displayName = job.displayName ∧ o.entrySymbol = job.entrySymbol ∧
        if l.overruns = true ∧ k.config.jobTimeout.isSome then o.verdict = .timeout
        else ∀ h' w', ((k.classify (l.captured k) job.displayName).run h' w').1 =
          .ok (o.verdict, o.expectation) := by
  have hheeds : h.Heeds → ((∃ f, s.ending = .abandoned f) ↔
      ∃ x ∈ (k.command s.words).seconds?, Call.limitFault? x ≠ none) := by
    intro hh
    have hbegun := hs.begun
    have hending : s.ending =
        (h.behave s.prepared.calls (k.command s.words).call s.prepared.disk).2 := by
      rw [hs.behaved]
    rw [hending] at hbegun ⊢
    exact hh.abandoned_started_iff hbegun
  rcases hs.cases with ⟨f, he⟩ | ⟨l, rfl⟩
  · have hraises := verify_raises_of_abandoned hk hs he
    refine ⟨iff_of_false ?_ (not_not_intro (.limit f he)), hheeds, ?_⟩
    · rintro ⟨o, ho⟩
      rw [hraises] at ho
      cases ho
    · intro o ho
      rw [hraises] at ho
      cases ho
  · have hl := hs.launches
    refine ⟨?_, hheeds, fun o ho => ⟨l, rfl, verdict_of_launches hk hl ho⟩⟩
    rw [verify_ok_iff_of_launches hk hl, not_iff_not]
    constructor
    · exact fun ha => .ended l rfl ha
    · rintro (⟨f, he⟩ | ⟨l', hl', ha⟩)
      · cases he
      · obtain rfl := Launch.eq_of_start hl'
        exact ha

/-! ## All backends -/

theorem keeps_surface_execute (k : Checker) (words : List String) :
    Keeps World.surface (k.execute words) := by
  unfold execute
  split
  · exact Keeps.ofExcept _
  · exact Command.keeps_surface_run _

theorem keeps_started_verifyWithTool (k : Checker) (job : Job) :
    Keeps World.started (k.verifyWithTool job) :=
  (OutputDir.keeps_surface_prepare _ _ _).started_of_surface.bind fun _ =>
    (keeps_announce Action.logFree_deeds k job _).started_of_deeds.bind fun _ =>
      (Keeps.ofExcept _).bind fun _ =>
      (k.keeps_surface_execute _).started_of_surface.bind fun _ =>
        (k.keeps_deeds_evaluate job _ _).started_of_deeds

theorem keeps_started_verifyWithHarness (k : Checker) (job : Job) :
    Keeps World.started (k.verifyWithHarness job) := by
  refine (Keeps.ofExcept _).bind fun _ => ?_
  refine (k.keeps_surface_execute _).started_of_surface.attempt.bind fun r => ?_
  split
  · exact Keeps.pure _
  · exact (Action.keeps_deeds_log _ _ _).started_of_deeds.bind fun _ => Keeps.pure _
  · exact Keeps.fail _

/-- Whatever comes of it, verifying a job takes up this job and no other. -/
theorem verify_started (k : Checker) (job : Job) (h : Host) (w : World) :
    ((k.verify job).run h w).2.started = w.started ++ [job] := by
  unfold verify
  rw [Action.bind_of_ok (Action.start_run job h w)]
  split
  · exact k.keeps_started_verifyWithHarness job h _
  · exact k.keeps_started_verifyWithTool job h _

/-- The outcome has the job's names, and an error only if that is its verdict. -/
def Names (job : Job) (o : Outcome) : Prop :=
  o.displayName = job.displayName ∧ o.entrySymbol = job.entrySymbol ∧
    (o.error.isSome → o.verdict = .error)

theorem IsOutcome.names {p : Verdict × Expectation} {o : Outcome} (ho : IsOutcome job p o) :
    Names job o := by
  obtain ⟨hname, hentry, -, -, herror⟩ := ho
  refine ⟨hname, hentry, fun hs => ?_⟩
  rw [herror] at hs
  cases hs

theorem verifyWithTool_yields (k : Checker) (job : Job) :
    Yields (k.verifyWithTool job) (Names job) := by
  refine Yields.bind fun output => Yields.bind fun _ => Yields.bind fun _ =>
    Yields.bind fun capture => ?_
  rw [evaluate_eq]
  refine Yields.bind fun p => Yields.bind fun _ => ?_
  exact (k.conclude_yields job output capture p).mono fun o ho => ho.names

theorem verifyWithHarness_yields (k : Checker) (job : Job) :
    Yields (k.verifyWithHarness job) (Names job) := by
  refine Yields.bind fun _ => Yields.bind fun r => ?_
  split
  · exact Yields.pure ⟨rfl, rfl, fun hs => nomatch hs⟩
  · exact Yields.bind fun _ => Yields.pure ⟨rfl, rfl, fun _ => rfl⟩
  · exact Yields.fail _

/-- Every outcome that verifying a job gives is called after the job. -/
theorem verify_yields (k : Checker) (job : Job) : Yields (k.verify job) (Names job) := by
  refine Yields.bind fun _ => ?_
  split
  · exact k.verifyWithHarness_yields job
  · exact k.verifyWithTool_yields job

/-! ## KLEE on one job -/

/-- A host on which every process succeeds and says this on its error stream. -/
def saying (err : Text.Bytes) : Host where
  environment := []
  installed _ := true
  processors := 1
  pinned _ := false
  behave _ _ disk := (disk, .ended 0 [] err false)

/-- A disk that holds KLEE's directory for results and nothing else. -/
def sampleDisk : Disk := ⟨[(Disk.keyOf ["kleeout"], .directory)], []⟩

def sampleKlee : Checker := ⟨.klee, Config.standard 1, none⟩

def sampleJob : Job := ⟨"t", "t", ⟨.relative, ["t.bc"]⟩⟩

/-- The launch of the sample job where processes say this. -/
def sampleLaunch (err : Text.Bytes) : Launch where
  output := ⟨.relative, ["kleeout", "t"]⟩
  words := "klee" :: Klee.arguments sampleKlee.config sampleJob ⟨.relative, ["kleeout", "t"]⟩ []
  prepared := { World.begin sampleDisk with started := [sampleJob] }
  disk := sampleDisk
  code := 0
  stdout := []
  stderr := err
  overruns := false

theorem sampleDisk_kleeout (aim : Disk.Aim) :
    sampleDisk.find aim (Disk.hereDir.child "kleeout").text =
      .ok (.entry ["kleeout"] .directory) :=
  Disk.find_something Disk.proper_hereDir (by decide) (by decide)
    (Disk.directoryAt?_hereDir sampleDisk) (by decide) (fun _ => Entry.noConfusion) aim

theorem sampleDisk_job (aim : Disk.Aim) :
    sampleDisk.find aim ((Disk.hereDir.child "kleeout").child "t").text =
      .ok (.vacant ["kleeout"] "t") := by
  have hdir : sampleDisk.directoryAt? (Disk.hereDir.child "kleeout") = some ["kleeout"] :=
    Disk.directoryAt?_child Disk.proper_hereDir (by decide) (by decide)
      (Disk.directoryAt?_hereDir sampleDisk) (by decide)
  exact Disk.find_nothing (by decide) (by decide) (by decide) hdir (by decide) aim

/-- Where the sample job's place is free, and its parent there, nothing has to be done. -/
theorem prepare_sample {c : Config} (hw : w.disk = sampleDisk)
    (hpath : Backend.klee.outputDir c sampleJob = ⟨.relative, ["kleeout", "t"]⟩) :
    (OutputDir.prepare .klee c sampleJob).run h w = (.ok ⟨.relative, ["kleeout", "t"]⟩, w) := by
  have hj := sampleDisk_job
  have hk := sampleDisk_kleeout
  rw [← hw] at hj hk
  exact OutputDir.prepare_klee hpath (hj .target) (hj .itself) (by decide) (hk .itself)
    (hk .target)

theorem launches_sample (err : Text.Bytes) :
    sampleKlee.Launches sampleJob (saying err) (World.begin sampleDisk) (sampleLaunch err) where
  prepared := prepare_sample rfl (by decide)
  built := rfl
  limited := by
    intro h
    cases h
  ended := rfl

theorem sampleKlee_isVerifier : sampleKlee.backend.IsVerifier :=
  Backend.isVerifier_iff.mpr (.inl rfl)

/-- A process that says nothing. -/
theorem verify_of_silent_launch :
    ∃ o, ((sampleKlee.verify sampleJob).run (saying []) (World.begin sampleDisk)).1 = .ok o := by
  refine (verify_of_starts sampleKlee_isVerifier (launches_sample []).starts).1.mpr ?_
  have hparts : ∀ part ∈ Counterexample.fixedParts (sampleLaunch []).output,
      Disk.hasNull part = false := by decide
  have hclear : ¬ sampleKlee.Aborts (sampleLaunch []) := not_aborts rfl nofun hparts
  rintro (⟨f, he⟩ | ⟨l, hl, ha⟩)
  · cases he
  · obtain rfl := Launch.eq_of_start hl
    exact hclear ha

/-- The bytes of a text of ASCII. -/
def asciiBytes (cs : List Char) : Text.Bytes :=
  cs.map fun c => c.toNat.toUInt8

theorem decodeLatin1_asciiBytes {cs : List Char} (hc : ∀ c ∈ cs, c.toNat < 256) :
    Text.decodeLatin1 (asciiBytes cs) = String.ofList cs := by
  have hmap : cs.map ((fun b => Char.ofNat b.toNat) ∘ fun c => c.toNat.toUInt8) = cs.map id := by
    refine List.map_congr_left fun c hmem => ?_
    have hmod : c.toNat % 256 = c.toNat := Nat.mod_eq_of_lt (hc c hmem)
    simp [hmod]
  unfold Text.decodeLatin1 asciiBytes
  rw [List.map_map, hmap, List.map_id]

/-- A line of ASCII on the error stream. -/
theorem lines_sampleLaunch {cs : List Char} (hc : ∀ c ∈ cs, c.toNat < 256)
    (hb : ∀ c ∈ cs, Text.isLineBreak c = false) (hne : cs ≠ []) :
    ((sampleLaunch (asciiBytes cs)).captured sampleKlee).lines [.stderr] = [String.ofList cs] := by
  have herr : ((sampleLaunch (asciiBytes cs)).captured sampleKlee).text .stderr =
      String.ofList cs := decodeLatin1_asciiBytes hc
  rw [Capture.lines_cons, Capture.lines_nil, List.append_nil, herr, Text.linesOf,
    String.toList_ofList, Text.lines_of_forall hb hne]
  rfl

/-- The digits of a number with one digit more than an integer may have. -/
def manyDigits : List Char :=
  List.replicate (Number.maxDigits + 1) '1'

/-- A statistic with so many digits. -/
def longStatistic : String :=
  Statistics.heading ++ String.ofList (' ' :: (['x', ' '] ++ '=' :: ' ' :: manyDigits))

theorem overlong_longStatistic : Statistics.Overlong longStatistic := by
  refine Statistics.overlong_assignment (by decide) (fun c hc => ?_) ?_
  · rw [List.eq_of_mem_replicate hc]
    decide
  · rw [manyDigits, List.length_replicate]
    exact Nat.lt_succ_self _

theorem plain_longStatistic :
    ∀ c ∈ longStatistic.toList, c.toNat < 256 ∧ Text.isLineBreak c = false := by
  intro c hc
  have hplain : (Statistics.heading.toList ++ [' ', 'x', ' ', '=', ' ', '1']).all
      (fun c => decide (c.toNat < 256 ∧ Text.isLineBreak c = false)) = true := by decide
  refine of_decide_eq_true (List.all_eq_true.mp hplain c ?_)
  rw [longStatistic, String.toList_append, String.toList_ofList] at hc
  simp only [List.mem_append, List.mem_cons, List.not_mem_nil, or_false, manyDigits,
    List.mem_replicate] at hc ⊢
  rcases hc with hc | hc | (hc | hc) | hc | hc | ⟨-, hc⟩ <;> simp [hc]

/-- One line that KLEE can print, and no outcome for the job. -/
theorem verify_raises_on_longStatistic :
    ∃ e, ((sampleKlee.verify sampleJob).run (saying (asciiBytes longStatistic.toList))
      (World.begin sampleDisk)).1 = .error e := by
  refine verify_raises sampleKlee_isVerifier (launches_sample _) (.number ⟨rfl, longStatistic, ?_,
    overlong_longStatistic⟩)
  have hne : longStatistic.toList ≠ [] := by
    rw [longStatistic, String.toList_append, String.toList_ofList]
    exact List.append_ne_nil_of_right_ne_nil _ (List.cons_ne_nil _ _)
  rw [lines_sampleLaunch (fun c hc => (plain_longStatistic c hc).1)
    (fun c hc => (plain_longStatistic c hc).2) hne, String.ofList_toList]
  exact List.mem_singleton_self _

end Checker

end Assay
