import Assay.Proofs.Schedule
import Assay.Run.Records

/-!
# What a finished run has done

`Finished` lists what is known of the suite of a run that came to its end, whatever backend it chose
and however its jobs went: there were as many records as were asked for, there is at least one
outcome, the sums agree with the outcomes, and with a verifier the outcomes are called after the
records, one for one. `suiteOfRecords_ok` is this for the runs of a manifest; it follows the stages
of a run, each of which has a lemma that takes it apart.

`World.Tidy` says that what has been printed ends with the end of a line.
-/

namespace Assay

open Assay.Action (Keeps Maintains)

/-! ## The end of the output -/

/-- The last text that was printed is a line. -/
def World.Tidy (w : World) : Prop :=
  ∃ before line, w.output = before ++ [line ++ "\n"]

theorem tidy_printLine (s : String) (h : Host) (w : World) :
    ((Action.printLine s).run h w).2.Tidy :=
  ⟨w.output, s, rfl⟩

theorem maintains_tidy_printLine (s : String) : Maintains World.Tidy (Action.printLine s) :=
  fun h w _ => tidy_printLine s h w

theorem maintains_tidy_of_surface {α : Type} {x : Action α} (hx : Keeps World.surface x) :
    Maintains World.Tidy x := by
  refine Maintains.of_keeps (fun w w' hw ht => ?_) hx
  obtain ⟨before, line, hout⟩ := ht
  have houtput : w'.output = w.output := congrArg Prod.fst hw
  exact ⟨before, line, houtput.trans hout⟩

theorem maintains_tidy_log (level : Level) (source : Source) (message : String) :
    Maintains World.Tidy (Action.log level source message) :=
  maintains_tidy_of_surface (Action.keeps_log Action.logFree_surface _ _ _)

/-! ## Replays -/

namespace Replayer

theorem keeps_surface_execute (r : Replayer) (words : List String)
    (environment : List (String × String)) : Keeps World.surface (r.execute words environment) := by
  refine (Command.keeps_surface_run _).attempt.bind fun result => ?_
  split
  · exact Keeps.pure _
  · exact Keeps.fail _
  · exact Keeps.fail _

theorem maintains_tidy_replay (r : Replayer) (job : Job) (counterexample : Path) :
    Maintains World.Tidy (r.replay job counterexample) := by
  refine (maintains_tidy_of_surface (Action.keeps_askDisk _)).bind fun there => ?_
  refine Maintains.ite (Maintains.fail _) ?_
  refine (maintains_tidy_of_surface Keeps.host).bind fun h => ?_
  refine (maintains_tidy_of_surface (Keeps.ofExcept _)).bind fun environment => ?_
  refine (maintains_tidy_of_surface (r.keeps_surface_execute _ _)).bind fun capture => ?_
  exact (Maintains.forM _ fun line _ => maintains_tidy_printLine line).bind fun _ =>
    Maintains.pure _

theorem maintains_tidy_replayListed (r : Replayer) (job : Job) (counterexample : String) :
    Maintains World.Tidy (r.replayListed job counterexample) := by
  refine (maintains_tidy_printLine _).bind fun _ =>
    (r.maintains_tidy_replay job _).attempt.bind fun result => ?_
  split
  · exact Maintains.pure _
  · exact (maintains_tidy_log _ _ _).bind fun _ => Maintains.pure _
  · exact Maintains.fail _

end Replayer

namespace Gaps

theorem maintains_tidy_replayListed (g : Gaps) (r : Replayer) (job : Job)
    (counterexample : String) : Maintains World.Tidy (g.replayListed r job counterexample) := by
  refine (maintains_tidy_of_surface Keeps.disk).bind fun d => ?_
  refine Maintains.ite ?_ ?_
  · exact (maintains_tidy_printLine _).bind fun _ => Maintains.fail _
  · exact (r.maintains_tidy_replayListed job _).bind fun _ => Maintains.pure _

theorem maintains_tidy_replay (g : Gaps) (r : Replayer) (job : Job) (o : Outcome) :
    Maintains World.Tidy (g.replay r job o) := by
  refine Maintains.ite (Maintains.forM _ fun c _ => g.maintains_tidy_replayListed r job c) ?_
  refine Maintains.bind ?_ fun _ => Maintains.pure _
  exact (Maintains.mapM _ fun c _ => r.maintains_tidy_replayListed job c).bind fun _ =>
    Maintains.pure _

/-! ## Verifying with gaps -/

/-- Gaps among the settings change neither how many jobs are taken up nor what outcomes are
called. -/
theorem proper (g : Gaps) (k : Checker) (name : String) (c : Config) :
    (Scheduler.mk name (g.verify k) c).Proper where
  started job h w := by
    show ((g.verify k job).run h w).2.started = _
    unfold verify
    split
    · rfl
    · split
      · rw [Action.bind_of_ok (Action.start_run job h w)]
        exact (Keeps.bind (Keeps.ofExcept _) fun _ => Keeps.fail _) h _
      · exact k.verify_started job h w
  names job := by
    show Action.Yields (g.verify k job) _
    unfold verify
    split
    · exact Action.Yields.bind fun _ => Action.Yields.fail _
    · split
      · exact Action.Yields.bind fun _ => Action.Yields.bind fun _ => Action.Yields.fail _
      · exact k.verify_yields job

end Gaps

/-! ## The stages of a run -/

namespace Run

variable {r : Run} {g : Gaps} {k : Checker} {jobs : List Job} {records : List JobRecord}
  {suite : Suite} {h : Host} {w w' : World}

/-- The suite is one of these jobs with this backend. -/
structure Concerns (k : Checker) (jobs : List Job) (suite : Suite) : Prop where
  adds : suite.Adds
  backend : suite.backend = k.backendName
  names : suite.outcomes.map (fun o => (o.displayName, o.entrySymbol)) =
    jobs.map fun job => (job.displayName, job.entrySymbol)

theorem Concerns.ne_nil (hc : Concerns k jobs suite) (hj : jobs ≠ []) : suite.outcomes ≠ [] := by
  intro hnil
  have hnames := hc.names
  rw [hnil, List.map_nil] at hnames
  exact hj (List.map_eq_nil_iff.mp hnames.symm)

theorem schedule_ok (hr : (r.schedule g k jobs).run h w = (.ok suite, w')) :
    Concerns k jobs suite := by
  unfold schedule at hr
  split at hr
  case h_1 =>
    obtain ⟨_, w₁, -, hr⟩ := Action.bind_ok_iff.mp hr
    cases hr
  case h_2 =>
    obtain ⟨⟨suite', p'⟩, w₁, hrun, hr⟩ := Action.bind_ok_iff.mp hr
    obtain ⟨rfl, -⟩ := Action.pure_ok_iff.mp hr
    have ha := Scheduler.accounts_of_run (g.proper k k.backendName r.effective)
      (.of_not_closed Pool.absent_ne_closed) hrun
    exact ⟨ha.adds, ha.backend, ha.names⟩

theorem maintains_tidy_printElapsed (c : Config) (phase : String) :
    Maintains World.Tidy (printElapsed c phase) :=
  Maintains.ite (maintains_tidy_printLine _) (Maintains.pure ())

theorem verify_ok (hr : (r.verify g k jobs).run h w = (.ok suite, w')) :
    Concerns k jobs suite ∧ w'.Tidy := by
  obtain ⟨_, w₁, _, hr⟩ := Action.bind_ok_iff.mp hr
  obtain ⟨suite', w₂, hsuite, hr⟩ := Action.bind_ok_iff.mp hr
  obtain ⟨_, w₃, _, hr⟩ := Action.bind_ok_iff.mp hr
  obtain ⟨_, w₄, hsummary, hr⟩ := Action.bind_ok_iff.mp hr
  obtain ⟨_, w₅, helapsed, hr⟩ := Action.bind_ok_iff.mp hr
  obtain ⟨rfl, rfl⟩ := Action.pure_ok_iff.mp hr
  have ht : w₄.Tidy := by
    have ht := tidy_printLine suite'.summary h w₃
    rw [hsummary] at ht
    exact ht
  exact ⟨schedule_ok hsuite, (maintains_tidy_printElapsed _ _).of_run helapsed ht⟩

theorem maintains_tidy_replayAll (g : Gaps) (e : Replayer) (jobs : List Job)
    (outcomes : List Outcome) : Maintains World.Tidy (replayAll g e jobs outcomes) := by
  refine Maintains.forM _ fun o _ => ?_
  split
  · exact g.maintains_tidy_replay e _ o
  · exact Maintains.pure ()

theorem carryOut_ok (hr : (r.carryOut g k jobs).run h w = (.ok suite, w')) :
    Concerns k jobs suite ∧ w'.Tidy := by
  obtain ⟨suite', w₁, hsuite, hr⟩ := Action.bind_ok_iff.mp hr
  obtain ⟨hc, ht⟩ := verify_ok hsuite
  split at hr
  case isTrue =>
    obtain ⟨_, w₂, hreplay, hr⟩ := Action.bind_ok_iff.mp hr
    obtain ⟨rfl, rfl⟩ := Action.pure_ok_iff.mp hr
    exact ⟨hc, (maintains_tidy_replayAll _ _ _ _).of_run hreplay ht⟩
  case isFalse =>
    obtain ⟨rfl, rfl⟩ := Action.pure_ok_iff.mp hr
    exact ⟨hc, ht⟩

/-! ## Preparation -/

theorem checkCount_ok {count : Nat} (hc : r.checkCount count = .ok ()) {n : Int}
    (hn : r.requested = some n) : n = count := by
  unfold checkCount at hc
  rw [hn] at hc
  dsimp only at hc
  split at hc
  case isTrue heq => exact heq
  case isFalse =>
    split at hc
    · cases hc
    · cases hc

theorem prepare_ok {count : Nat} (hp : (r.prepare count).run h w = (.ok k, w')) {n : Int}
    (hn : r.requested = some n) : n = count := by
  obtain ⟨_, w₁, hc, -⟩ := Action.bind_ok_iff.mp hp
  exact checkCount_ok (Action.ofExcept_ok_iff.mp hc).1 hn

/-- What is planned is one job for the harness, and for any other backend the jobs, of which there
is one at least. -/
theorem plan_ok {planned : List Job} (hp : plan g k jobs = .ok planned) :
    planned ≠ [] ∧ (k.backend.isHarness = true ∨ planned = jobs) := by
  unfold plan at hp
  split at hp
  case isTrue hk =>
    dsimp only at hp
    refine ⟨?_, .inl hk⟩
    rintro rfl
    generalize g.suiteJob k.config ((jobs.head?.map Job.artifact).getD (Path.parse "")) = e at hp
    cases e <;> cases hp
  case isFalse hk =>
    split at hp
    case isTrue => cases hp
    case isFalse hne =>
      cases hp
      exact ⟨fun hnil => hne (List.isEmpty_iff.mpr hnil), .inr rfl⟩

/-- The harness has a name of its own. -/
theorem not_isHarness_of_name {b b' : Backend} (hb : b.IsVerifier) (hn : b'.name = b.name) :
    b'.isHarness = false := by
  cases b' with
  | harness =>
    exfalso
    revert hn
    rcases Backend.isVerifier_iff.mp hb with rfl | rfl | rfl <;> decide
  | _ => rfl

/-! ## The whole run -/

/-- What is known of the suite of a finished run of records. -/
structure Finished (r : Run) (records : List JobRecord) (suite : Suite) (w' : World) : Prop where
  counted : ∀ n, r.requested = some n → n = records.length
  nonempty : suite.outcomes ≠ []
  adds : suite.Adds
  names : (∃ b : Backend, b.IsVerifier ∧ suite.backend = b.name) →
    suite.outcomes.map (fun o => (some o.displayName, some o.entrySymbol)) =
      records.map fun rec => (rec.displayName.text?, rec.entrySymbol.text?)
  tidy : w'.Tidy

/-- The names of checked records are texts, and their jobs are called so. -/
theorem names_of_job? {rec : JobRecord} {job : Job} (hj : rec.job? = some job) :
    (some job.displayName, some job.entrySymbol) =
      (rec.displayName.text?, rec.entrySymbol.text?) := by
  unfold JobRecord.job? at hj
  rw [Option.bind_eq_bind, Option.bind_eq_some_iff] at hj
  obtain ⟨name, hname, hj⟩ := hj
  rw [Option.bind_eq_some_iff] at hj
  obtain ⟨entry, hentry, hj⟩ := hj
  cases hj
  rw [hname, hentry]

theorem names_of_mapM_job? (hj : records.mapM JobRecord.job? = some jobs) :
    jobs.map (fun job => (some job.displayName, some job.entrySymbol)) =
      records.map fun rec => (rec.displayName.text?, rec.entrySymbol.text?) := by
  induction records generalizing jobs with
  | nil =>
    cases hj
    rfl
  | cons rec records ih =>
    rw [List.mapM_cons, Option.bind_eq_bind, Option.bind_eq_some_iff] at hj
    obtain ⟨job, hjob, hj⟩ := hj
    rw [Option.bind_eq_bind, Option.bind_eq_some_iff] at hj
    obtain ⟨rest, hrest, hj⟩ := hj
    cases hj
    rw [List.map_cons, List.map_cons, ih hrest, names_of_job? hjob]

theorem finished_of_concerns {records : List JobRecord} (hc : Concerns k jobs suite)
    (hne : jobs ≠ []) (hcount : ∀ n, r.requested = some n → n = records.length)
    (hnames : k.backend.isHarness = false →
      jobs.map (fun job => (some job.displayName, some job.entrySymbol)) =
        records.map fun rec => (rec.displayName.text?, rec.entrySymbol.text?))
    (ht : w'.Tidy) : r.Finished records suite w' where
  counted := hcount
  nonempty := hc.ne_nil hne
  adds := hc.adds
  names := by
    rintro ⟨b, hb, hn⟩
    have hharness := not_isHarness_of_name hb (hc.backend.symm.trans hn)
    have hmap := congrArg (List.map (Prod.map some some)) hc.names
    rw [List.map_map, List.map_map] at hmap
    exact hmap.trans (hnames hharness)
  tidy := ht

/-- A run of jobs that came to its end. -/
theorem suiteWith_ok (hj : records.mapM JobRecord.job? = some jobs)
    (hr : (r.suiteWith g jobs).run h w = (.ok suite, w')) : r.Finished records suite w' := by
  obtain ⟨k, w₁, hprepare, hr⟩ := Action.bind_ok_iff.mp hr
  obtain ⟨planned, w₂, hplan, hr⟩ := Action.bind_ok_iff.mp hr
  obtain ⟨hne, hplanned⟩ := plan_ok (Action.ofExcept_ok_iff.mp hplan).1
  obtain ⟨hc, ht⟩ := carryOut_ok hr
  have hnames := names_of_mapM_job? hj
  have hlength : jobs.length = records.length := by
    have := congrArg List.length hnames
    rwa [List.length_map, List.length_map] at this
  refine finished_of_concerns hc hne (fun n hn => ?_) (fun hk => ?_) ht
  · rw [prepare_ok hprepare hn, hlength]
  · rcases hplanned with hh | rfl
    · rw [hh] at hk
      cases hk
    · exact hnames

/-- A run that is broken off has no suite. -/
theorem breakOff_not_ok : (r.breakOff g k records).run h w ≠ (.ok suite, w') := by
  intro hr
  obtain ⟨_, w₁, _, hr⟩ := Action.bind_ok_iff.mp hr
  obtain ⟨_, w₂, _, hr⟩ := Action.bind_ok_iff.mp hr
  obtain ⟨_, w₃, _, hr⟩ := Action.bind_ok_iff.mp hr
  split at hr
  all_goals
    obtain ⟨_, w₄, _, hr⟩ := Action.bind_ok_iff.mp hr
    cases hr

/-- Records that are not all well-typed can come to an end with the harness only. -/
theorem suiteOfShown_ok (hr : (r.suiteOfShown g records).run h w = (.ok suite, w')) :
    r.Finished records suite w' := by
  obtain ⟨k, w₁, hprepare, hr⟩ := Action.bind_ok_iff.mp hr
  split at hr
  case isTrue hk =>
    obtain ⟨planned, w₂, hplan, hr⟩ := Action.bind_ok_iff.mp hr
    obtain ⟨hne, -⟩ := plan_ok (Action.ofExcept_ok_iff.mp hplan).1
    obtain ⟨hc, ht⟩ := carryOut_ok hr
    refine finished_of_concerns hc hne (fun n hn => prepare_ok hprepare hn) (fun hk' => ?_) ht
    rw [hk] at hk'
    cases hk'
  case isFalse hk =>
    split at hr
    · cases hr
    · exact absurd hr breakOff_not_ok

/-- **A run of a manifest's records that came to its end**, with any backend: see `Finished`. -/
theorem suiteOfRecords_ok (hr : (r.suiteOfRecords g records).run h w = (.ok suite, w')) :
    r.Finished records suite w' := by
  unfold suiteOfRecords at hr
  split at hr
  case h_1 jobs hj => exact suiteWith_ok hj hr
  case h_2 => exact suiteOfShown_ok hr

end Run

end Assay
