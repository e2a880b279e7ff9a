import Assay.Proofs.Run

/-!
# What keeps a run from starting

A run that cannot start says so with a setup fault, and then nothing has been done: no process was
started, no job was taken up, and the disk is as it was. `Refused` lists the causes: the number of
jobs is not the one asked for, the backend asked for cannot be used, the backend refuses the
options, or there is nothing to verify. `suite_setup_iff` says that a run ends with a setup fault
exactly in these cases, but for a difference in the number of jobs of so many digits that it cannot
be told, which ends the run with another fault.

Once the jobs have been planned, no fault is a setup fault: `carryOut_not_setup`.
-/

namespace Assay

open Assay.Action (Faults Keeps Returns)

/-- The fault is not about the start of a run. -/
def Fault.NotSetup (f : Fault) : Prop :=
  ∀ g, f ≠ .setup g

section NotSetup

theorem notSetup_job (f : JobFault) : (Fault.job f).NotSetup := fun _ h => nomatch h

theorem notSetup_replay (f : ReplayFault) : (Fault.replay f).NotSetup := fun _ h => nomatch h

theorem notSetup_disk (f : OsFault) : (Fault.disk f).NotSetup := fun _ h => nomatch h

theorem notSetup_gap (f : GapFault) : (Fault.gap f).NotSetup := fun _ h => nomatch h

theorem notSetup_nullByte : Fault.nullByte.NotSetup := fun _ h => nomatch h

theorem notSetup_call (f : CallFault) : (Fault.call f).NotSetup := fun _ h => nomatch h

theorem notSetup_emptyCommand : Fault.emptyCommand.NotSetup := fun _ h => nomatch h

theorem notSetup_of_mapError {ε α : Type} {r : Except ε α} {g : ε → Fault}
    (hg : ∀ f, (g f).NotSetup) : ∀ e, r.mapError g = .error e → e.NotSetup := by
  intro e he
  cases r with
  | error f =>
    cases he
    exact hg f
  | ok a => cases he

end NotSetup

/-! ## Commands and replays -/

namespace Command

theorem faults_note (c : Command) (output : Capture) : Faults (c.note output) Fault.NotSetup := by
  unfold note
  split
  case h_1 path _ =>
    refine Faults.bind_attempt (P := Fault.NotSetup) ?_ (fun _ => Faults.pure _) fun e he => ?_
    · exact (Faults.refuseNull notSetup_nullByte).bind fun _ => Faults.changeDisk notSetup_disk
    · split
      case h_1 heq => cases heq
      case h_2 => exact Faults.of_returns (Action.returns_log _ _ _)
      case h_3 heq =>
        cases heq
        exact Faults.fail he
  case h_2 => exact Faults.pure _

theorem faults_conclude (c : Command) (program : String) (output : Capture) :
    Faults (c.conclude program output) Fault.NotSetup := by
  refine Faults.ite (Faults.of_returns (Action.returns_log _ _ _)) ?_
  refine Faults.ite (Faults.ite ?_ ?_) (Faults.pure _)
  · exact Faults.fail (notSetup_job _)
  · exact Faults.fail (notSetup_job _)

theorem faults_run (c : Command) : Faults c.run Fault.NotSetup := by
  unfold run
  split
  · exact Faults.fail notSetup_emptyCommand
  · refine (Faults.of_returns (announce_returns c _)).bind fun _ => Faults.bind ?_ fun _ => ?_
    · refine Faults.ofExcept fun e he => ?_
      unfold needLimit at he
      split at he
      · cases he
        exact notSetup_gap _
      · cases he
    · refine Faults.bind (Faults.of_returns (R := fun _ => True) fun h w => ⟨_, rfl, trivial⟩)
        fun ending => ?_
      split
      · exact Faults.fail (notSetup_job _)
      · exact Faults.fail (notSetup_call _)
      · exact (c.faults_note _).bind fun _ => (c.faults_conclude _ _).bind fun _ => Faults.pure _

end Command

namespace Replayer

theorem faults_execute (r : Replayer) (words : List String)
    (environment : List (String × String)) :
    Faults (r.execute words environment) Fault.NotSetup := by
  refine Faults.bind_attempt (Command.faults_run _) (fun _ => Faults.pure _) fun e he => ?_
  split
  case h_1 heq => cases heq
  case h_2 => exact Faults.fail (notSetup_replay _)
  case h_3 heq =>
    cases heq
    exact Faults.fail he

theorem faults_replay (r : Replayer) (job : Job) (counterexample : Path) :
    Faults (r.replay job counterexample) Fault.NotSetup := by
  refine (Faults.askDisk notSetup_disk).bind fun there => ?_
  refine Faults.ite (Faults.fail (notSetup_replay _)) ?_
  refine (Faults.of_returns (R := fun _ => True) fun h w => ⟨h, rfl, trivial⟩).bind fun h => ?_
  refine (Faults.ofExcept (notSetup_of_mapError notSetup_replay)).bind fun environment => ?_
  refine (r.faults_execute _ _).bind fun capture => Faults.bind ?_ fun _ => Faults.pure _
  exact Faults.forM _ fun line _ => Faults.of_returns (Action.returns_print _)

theorem faults_replayListed (r : Replayer) (job : Job) (counterexample : String) :
    Faults (r.replayListed job counterexample) Fault.NotSetup := by
  refine (Faults.of_returns (Action.returns_print _)).bind fun _ => ?_
  refine Faults.bind_attempt (r.faults_replay job _) (fun _ => Faults.pure _) fun e he => ?_
  split
  case h_1 heq => cases heq
  case h_2 => exact (Faults.of_returns (Action.returns_log _ _ _)).bind fun _ => Faults.pure _
  case h_3 heq =>
    cases heq
    exact Faults.fail he

end Replayer

namespace Backend

/-- The names that backends are asked for by, in lower case. -/
def names : List String :=
  ["klee", "seahorn", "smack", "proptest", "direct", "mock"]

theorem ofName?_eq_none_iff {name : String} : ofName? name = none ↔ Text.lower name ∉ names := by
  unfold ofName? names
  dsimp only
  generalize Text.lower name = s
  by_cases h₁ : s = "klee"
  · simp [h₁]
  by_cases h₂ : s = "seahorn"
  · simp [h₂]
  by_cases h₃ : s = "smack"
  · simp [h₃]
  by_cases h₄ : s = "proptest"
  · simp [h₄]
  by_cases h₅ : s = "direct"
  · simp [h₅]
  by_cases h₆ : s = "mock" <;> simp [h₁, h₂, h₃, h₄, h₅, h₆]

/-- Combinations of options that a backend cannot honour. -/
inductive Rejects : Backend → Config → Prop where
  | arguments {c : Config} (ha : c.args ≠ []) : Rejects .seahorn c
  | replay {c : Config} (hr : c.replay ≠ 0) : Rejects .seahorn c
  | replayWithArguments {c : Config} (hr : 0 < c.replay) (ha : c.args ≠ []) : Rejects .harness c

theorem validate_cases (b : Backend) (c : Config) :
    (b.validate c = .ok () ∧ ¬ b.Rejects c) ∨ ∃ f, b.validate c = .error f ∧ b.Rejects c := by
  cases b with
  | seahorn =>
    show (Seahorn.validate c = _ ∧ _) ∨ ∃ f, Seahorn.validate c = .error f ∧ _
    unfold Seahorn.validate
    by_cases ha : c.args = []
    · by_cases hr : c.replay = 0
      · left
        refine ⟨by simp [ha, hr], ?_⟩
        rintro (⟨ha'⟩ | ⟨hr'⟩)
        · exact ha' ha
        · exact hr' hr
      · exact .inr ⟨.replayUnsupported, by simp [ha, hr], .replay hr⟩
    · exact .inr ⟨.argumentsUnsupported, by simp [ha], .arguments ha⟩
  | harness =>
    show (Harness.validate c = _ ∧ _) ∨ ∃ f, Harness.validate c = .error f ∧ _
    unfold Harness.validate
    by_cases hr : 0 < c.replay ∧ c.args ≠ []
    · exact .inr ⟨.replayWithArguments, by simp [hr.1, hr.2], .replayWithArguments hr.1 hr.2⟩
    · left
      refine ⟨if_neg ?_, ?_⟩
      · intro hc
        rw [Bool.and_eq_true, decide_eq_true_eq, Bool.not_eq_true', List.isEmpty_eq_false_iff] at hc
        exact hr hc
      · rintro (_ | _ | ⟨hr', ha'⟩)
        exact hr ⟨hr', ha'⟩
  | klee => exact .inl ⟨rfl, fun hr => nomatch hr⟩
  | smack => exact .inl ⟨rfl, fun hr => nomatch hr⟩
  | canned c' => exact .inl ⟨rfl, fun hr => nomatch hr⟩

end Backend

namespace Run

variable {r : Run} {k : Checker} {b b' : Backend} {jobs : List Job} {h : Host} {w w' : World}
  {count : Nat}

/-! ## The causes -/

/-- No backend was made beforehand, and the one asked for does not exist or is not installed. -/
def Unavailable (r : Run) (h : Host) : Prop :=
  r.prepared = none ∧ ∃ name, r.choice = some name ∧ name ≠ "" ∧
    (Text.lower name ∉ Backend.names ∨
      ∃ b, Backend.ofName? name = some b ∧ b.isInstalled h = false)

/-- The backend that a run works with: the one made beforehand, else the one asked for, else the one
that is found. An empty name asks for none. -/
inductive Chooses (r : Run) (h : Host) : Backend → Prop where
  | prepared {k : Checker} (hk : r.prepared = some k) : Chooses r h k.backend
  | named {name : String} {b : Backend} (hk : r.prepared = none) (hc : r.choice = some name)
      (hne : name ≠ "") (hb : Backend.ofName? name = some b) (hi : b.isInstalled h = true) :
      Chooses r h b
  | found (hk : r.prepared = none) (hc : r.choice = none ∨ r.choice = some "") :
      Chooses r h (Selection.preferred h)

/-- The number of jobs is not the one that was asked for. -/
def Miscounted (r : Run) (count : Nat) : Prop :=
  ∃ n, r.requested = some n ∧ n ≠ count

/-- It differs so much that the difference cannot be told. -/
def Untellable (r : Run) (count : Nat) : Prop :=
  ∃ n, r.requested = some n ∧ Nat.pow 10 Number.maxDigits ≤ (n - count).natAbs

/-- Why a run of this many jobs does not start on this host. -/
inductive Refused (r : Run) (h : Host) (count : Nat) : Prop where
  | count (hn : r.Miscounted count)
  | backend (hb : r.Unavailable h)
  | options (b : Backend) (hb : r.Chooses h b) (hr : b.Rejects r.effective)
  | noJobs (b : Backend) (hb : r.Chooses h b) (hh : b.isHarness = false) (hn : count = 0)

theorem Chooses.unique (hb : r.Chooses h b) (hb' : r.Chooses h b') : b = b' := by
  cases hb with
  | prepared hk =>
    cases hb' with
    | prepared hk' =>
      rw [hk, Option.some.injEq] at hk'
      rw [hk']
    | named hk' => rw [hk] at hk'; cases hk'
    | found hk' => rw [hk] at hk'; cases hk'
  | named hk hc hne hn =>
    cases hb' with
    | prepared hk' => rw [hk] at hk'; cases hk'
    | named hk' hc' hne' hn' =>
      rw [hc, Option.some.injEq] at hc'
      rw [hc', hn', Option.some.injEq] at hn
      exact hn.symm
    | found hk' hc' =>
      rcases hc' with hc' | hc' <;> rw [hc] at hc'
      · cases hc'
      · exact absurd (Option.some.inj hc') hne
  | found hk hc =>
    cases hb' with
    | prepared hk' => rw [hk] at hk'; cases hk'
    | named hk' hc' hne' =>
      rcases hc with hc | hc <;> rw [hc] at hc'
      · cases hc'
      · exact absurd (Option.some.inj hc').symm hne'
    | found => rfl

theorem Chooses.not_unavailable (hb : r.Chooses h b) : ¬ r.Unavailable h := by
  rintro ⟨hk, name, hc, hne, hbad⟩
  cases hb with
  | prepared hk' => rw [hk] at hk'; cases hk'
  | named hk' hc' hne' hn hi =>
    rw [hc, Option.some.injEq] at hc'
    rw [← hc'] at hn
    rcases hbad with hbad | ⟨b', hb', hi'⟩
    · rw [Backend.ofName?_eq_none_iff.mpr hbad] at hn
      cases hn
    · rw [hb', Option.some.injEq] at hn
      rw [← hn, hi'] at hi
      cases hi
  | found hk' hc' =>
    rcases hc' with hc' | hc' <;> rw [hc] at hc'
    · cases hc'
    · exact hne (Option.some.inj hc')

/-! ## Before the first job -/

theorem keeps_deeds_announce (b : Backend) (c : Config) :
    Keeps World.deeds (Selection.announce b c) :=
  (Action.keeps_deeds_log _ _ _).bind fun _ =>
    Keeps.ite (Action.keeps_deeds_printLine _) (Keeps.pure _)

theorem returns_announce (b : Backend) (c : Config) :
    Returns (Selection.announce b c) fun _ => True := by
  refine (Action.returns_log _ _ _).seq fun _ => ?_
  split
  · exact Action.returns_print _
  · exact Returns.pure trivial

/-- A choice that is no choice. -/
theorem filter_choice (hc : r.choice = none ∨ r.choice = some "") :
    (r.choice.filter fun name => !name.isEmpty) = none := by
  rcases hc with hc | hc
  · rw [hc]
    rfl
  · rw [hc]
    rfl

/-- A choice by name either finds its backend, or there is none to be had. -/
theorem choose_cases (hk : r.prepared = none) (c : Config) (h : Host) (w : World) :
    (∃ b w', (Selection.choose r.choice c).run h w = (.ok b, w') ∧ r.Chooses h b ∧
        w'.deeds = w.deeds) ∨
      ∃ f, (Selection.choose r.choice c).run h w = (.error (.setup f), w) ∧ r.Unavailable h := by
  unfold Selection.choose
  rw [Action.bind_of_ok (Action.host_run h w)]
  by_cases hc : r.choice = none ∨ r.choice = some ""
  · left
    obtain ⟨_, w₁, hr, -⟩ := (returns_announce (Selection.preferred h) c).run h w
    rw [filter_choice hc]
    dsimp only
    rw [Action.bind_of_ok hr]
    exact ⟨_, w₁, rfl, .found hk hc, (keeps_deeds_announce _ c).of_run hr⟩
  · rw [not_or] at hc
    obtain ⟨name, hname⟩ := Option.ne_none_iff_exists'.mp hc.1
    have hne : name ≠ "" := fun he => hc.2 (he ▸ hname)
    have hfilter : (r.choice.filter fun name => !name.isEmpty) = some name := by
      rw [hname]
      simp [Option.filter, hne]
    rw [hfilter]
    dsimp only
    unfold Selection.named
    cases hb : Backend.ofName? name with
    | none =>
      exact .inr ⟨_, rfl, hk, name, hname, hne, .inl (Backend.ofName?_eq_none_iff.mp hb)⟩
    | some b =>
      dsimp only
      cases hi : b.isInstalled h with
      | true => exact .inl ⟨b, w, rfl, .named hk hname hne hb hi, rfl⟩
      | false => exact .inr ⟨_, rfl, hk, name, hname, hne, .inr ⟨b, hb, hi⟩⟩

/-- The backend of a run that is made or was made has accepted the options; otherwise the run is
refused. -/
theorem checker_cases (r : Run) (h : Host) (w : World) :
    (∃ k w', r.checker.run h w = (.ok k, w') ∧ r.Chooses h k.backend ∧
        ¬ k.backend.Rejects r.effective ∧ w'.deeds = w.deeds) ∨
      ∃ f w', r.checker.run h w = (.error (.setup f), w') ∧ w'.deeds = w.deeds ∧
        (r.Unavailable h ∨ ∃ b, r.Chooses h b ∧ b.Rejects r.effective) := by
  unfold checker
  cases hk : r.prepared with
  | some k =>
    dsimp only
    rcases k.backend.validate_cases r.effective with ⟨hv, hr⟩ | ⟨f, hv, hr⟩
    · refine .inl ⟨k, w, ?_, .prepared hk, hr, rfl⟩
      rw [hv]
      rfl
    · refine .inr ⟨f, w, ?_, rfl, .inr ⟨k.backend, .prepared hk, hr⟩⟩
      rw [hv]
      rfl
  | none =>
    dsimp only
    unfold Selection.select
    rcases choose_cases hk r.effective h w with ⟨b, w₁, hc, hb, hd⟩ | ⟨f, hc, hu⟩
    · rcases b.validate_cases r.effective with ⟨hv, hr⟩ | ⟨f, hv, hr⟩
      · refine .inl ⟨⟨b, r.effective, r.script⟩, w₁, ?_, hb, hr, hd⟩
        rw [bind_assoc, Action.bind_of_ok hc, hv]
        rfl
      · refine .inr ⟨f, w₁, ?_, hd, .inr ⟨b, hb, hr⟩⟩
        rw [bind_assoc, Action.bind_of_ok hc, hv]
        rfl
    · refine .inr ⟨f, w, ?_, rfl, .inl hu⟩
      rw [bind_assoc, Action.bind_of_error hc]

theorem checkCount_cases (r : Run) (count : Nat) :
    (r.checkCount count = .ok () ∧ ¬ r.Miscounted count) ∨
      (r.checkCount count = .error (.number .tooLarge) ∧ r.Untellable count) ∨
      ∃ f, r.checkCount count = .error (.setup f) ∧ r.Miscounted count ∧ ¬ r.Untellable count := by
  unfold checkCount
  cases hn : r.requested with
  | none =>
    refine .inl ⟨rfl, ?_⟩
    rintro ⟨n, hn', -⟩
    rw [hn] at hn'
    cases hn'
  | some n =>
    dsimp only
    by_cases heq : n = count
    · refine .inl ⟨if_pos heq, ?_⟩
      rintro ⟨m, hm, hne⟩
      rw [hn, Option.some.injEq] at hm
      exact hne (hm ▸ heq)
    · rw [if_neg heq]
      by_cases hlarge : Nat.pow 10 Number.maxDigits ≤ (n - count).natAbs
      · exact .inr (.inl ⟨if_pos hlarge, n, hn, hlarge⟩)
      · refine .inr (.inr ⟨_, if_neg hlarge, ⟨n, hn, heq⟩, ?_⟩)
        rintro ⟨m, hm, hle⟩
        rw [hn, Option.some.injEq] at hm
        exact hlarge (hm ▸ hle)

theorem Untellable.miscounted (hu : r.Untellable count) : r.Miscounted count := by
  obtain ⟨n, hn, hle⟩ := hu
  have hpos : ∀ m, 0 < Nat.pow 10 m := fun m => Nat.pow_pos (by decide)
  refine ⟨n, hn, fun heq => ?_⟩
  rw [heq, Int.sub_self, Int.natAbs_zero] at hle
  exact Nat.not_le.mpr (hpos _) hle

/-! ## From the first job on -/

/-- Taking up jobs always comes to an end with a suite. -/
theorem schedule_returns (r : Run) (k : Checker) (jobs : List Job) :
    Returns (r.schedule .none k jobs) fun _ => True := by
  have hs := Gaps.none.proper k k.backendName r.effective
  intro h w
  have htakes : Scheduler.Takes .absent r.effective.jobs jobs :=
    .of_not_closed Pool.absent_ne_closed
  obtain ⟨suite, p', w', hr, -⟩ := Scheduler.runInOrder_run hs htakes
    (List.Perm.refl (List.finRange jobs.length)) h w
  rw [← Scheduler.run_eq_runInOrder hs] at hr
  refine ⟨suite, ?_, trivial⟩
  show ((Scheduler.run _ _ _ _ >>= _).run h w).1 = _
  rw [Action.bind_of_ok hr]
  rfl

theorem faults_replayAll (e : Replayer) (jobs : List Job) (outcomes : List Outcome) :
    Faults (replayAll .none e jobs outcomes) Fault.NotSetup := by
  refine Faults.forM _ fun o _ => ?_
  split
  case h_1 job _ =>
    rw [Gaps.replay_none]
    refine Faults.bind ?_ fun _ => Faults.pure _
    exact (Faults.mapM _ fun c _ => e.faults_replayListed job c).bind fun _ => Faults.pure _
  case h_2 => exact Faults.pure _

/-- Whatever goes wrong once the jobs are planned, it is not the start of the run. -/
theorem carryOut_not_setup (r : Run) (k : Checker) (jobs : List Job) :
    Faults (r.carryOut .none k jobs) Fault.NotSetup := by
  refine Faults.bind ?_ fun suite => ?_
  · refine (Faults.of_returns (Action.returns_log _ _ _)).bind fun _ => ?_
    refine (Faults.of_returns (r.schedule_returns k jobs)).bind fun suite => ?_
    refine (Faults.of_returns (Action.returns_print _)).bind fun _ => ?_
    refine (Faults.of_returns (Action.returns_print _)).bind fun _ => ?_
    refine Faults.bind ?_ fun _ => Faults.pure _
    exact Faults.ite (Faults.of_returns (Action.returns_print _)) (Faults.pure _)
  · exact Faults.ite ((faults_replayAll _ _ _).bind fun _ => Faults.pure _) (Faults.pure _)

theorem plan_cases (k : Checker) (jobs : List Job) :
    (∃ planned, plan .none k jobs = .ok planned ∧
        ¬ (k.backend.isHarness = false ∧ jobs.length = 0)) ∨
      plan .none k jobs = .error (.setup .noTests) ∧ k.backend.isHarness = false ∧
        jobs.length = 0 := by
  unfold plan
  cases hk : k.backend.isHarness with
  | true =>
    refine .inl ⟨[Harness.suiteJob k.config ((jobs.head?.map Job.artifact).getD (Path.parse ""))],
      ?_, fun hn => nomatch hn.1⟩
    rw [if_pos rfl]
    dsimp only
    rw [Gaps.suiteJob_none]
    rfl
  | false =>
    cases jobs with
    | nil => exact .inr ⟨rfl, rfl, rfl⟩
    | cons job jobs => exact .inl ⟨_, rfl, fun hn => nomatch hn.2⟩

/-! ## The whole run -/

/-- How a run ends as far as its start is concerned. -/
inductive Start (r : Run) (h : Host) (w : World) (count : Nat) :
    Except Fault Suite × World → Prop where
  /-- The number of jobs is wrong by a number that cannot be told. -/
  | untold (hu : r.Untellable count) : Start r h w count (.error (.number .tooLarge), w)
  /-- The run is refused before anything is done. -/
  | refused {f : SetupFault} {w' : World} (hu : ¬ r.Untellable count) (hr : r.Refused h count)
      (hd : w'.deeds = w.deeds) : Start r h w count (.error (.setup f), w')
  /-- The run has started, and whatever goes wrong afterwards is not its start. -/
  | started {e : Except Fault Suite} {w' : World} (hr : ¬ r.Refused h count)
      (he : ∀ f, e = .error f → f.NotSetup) : Start r h w count (e, w')

theorem suite_start (r : Run) (jobs : List Job) (h : Host) (w : World) :
    r.Start h w jobs.length ((r.suite jobs).run h w) := by
  show r.Start h w jobs.length ((prepare r jobs.length >>= _).run h w)
  unfold prepare
  rw [bind_assoc]
  rcases r.checkCount_cases jobs.length with ⟨hc, hn⟩ | ⟨hc, hu⟩ | ⟨f, hc, hm, hu⟩
  · have hu : ¬ r.Untellable jobs.length := fun hu => hn hu.miscounted
    rw [hc, Action.bind_of_ok (Action.ofExcept_run _ h w)]
    rcases r.checker_cases h w with ⟨k, w₁, hk, hb, hr, hd⟩ | ⟨f, w₁, hk, hd, hr⟩
    · rw [Action.bind_of_ok hk]
      rcases plan_cases k jobs with ⟨planned, hp, hne⟩ | ⟨hp, hh, h0⟩
      · rw [hp, Action.bind_of_ok (Action.ofExcept_run _ h w₁)]
        refine .started ?_ fun f hf => ?_
        · intro href
          cases href with
          | count hm => exact hn hm
          | backend hu' => exact hb.not_unavailable hu'
          | options b hb' hr' => exact hr (hb'.unique hb ▸ hr')
          | noJobs b hb' hh h0 => exact hne ⟨hb'.unique hb ▸ hh, h0⟩
        · exact r.carryOut_not_setup k planned h w₁ f _ (Prod.ext hf rfl)
      · rw [hp, Action.bind_of_error (Action.ofExcept_run _ h w₁)]
        exact .refused hu (.noJobs k.backend hb hh h0) hd
    · rw [Action.bind_of_error hk]
      refine .refused hu ?_ hd
      rcases hr with hr | ⟨b, hb, hr⟩
      · exact .backend hr
      · exact .options b hb hr
  · rw [hc, Action.bind_of_error (Action.ofExcept_run _ h w)]
    exact .untold hu
  · rw [hc, Action.bind_of_error (Action.ofExcept_run _ h w)]
    exact .refused hu (.count hm) rfl

/-- **A run ends with a setup fault exactly if it is refused**, and then nothing has been done. A
number of jobs that is wrong by a number of too many digits is the one cause that ends the run with
another fault; nothing has been done then either. -/
theorem suite_setup_iff (r : Run) (jobs : List Job) (h : Host) (w : World) :
    ((∃ f, ((r.suite jobs).run h w).1 = .error (.setup f)) ↔
        r.Refused h jobs.length ∧ ¬ r.Untellable jobs.length) ∧
      (∀ f, ((r.suite jobs).run h w).1 = .error (.setup f) →
        ((r.suite jobs).run h w).2.deeds = w.deeds) ∧
      (r.Untellable jobs.length →
        (r.suite jobs).run h w = (.error (.number .tooLarge), w)) := by
  have hstart := r.suite_start jobs h w
  generalize (r.suite jobs).run h w = result at hstart ⊢
  cases hstart with
  | untold hu =>
    refine ⟨⟨?_, fun hr => absurd hu hr.2⟩, ?_, fun _ => rfl⟩
    · rintro ⟨f, hf⟩
      cases hf
    · intro f hf
      cases hf
  | @refused f w' hu hr hd =>
    exact ⟨⟨fun _ => ⟨hr, hu⟩, fun _ => ⟨f, rfl⟩⟩, fun _ _ => hd, fun hu' => absurd hu' hu⟩
  | @started e w' hr he =>
    refine ⟨⟨?_, fun hr' => absurd hr'.1 hr⟩, ?_, fun hu => absurd (.count hu.miscounted) hr⟩
    · rintro ⟨f, hf⟩
      exact absurd rfl (he _ hf f)
    · intro f hf
      exact absurd rfl (he _ hf f)

/-- A run of KLEE that asks for this many jobs. -/
def asking (n : Int) : Run :=
  ⟨some "klee", [], none, some n, Config.standard 1, none, none⟩

/-- A number below zero that has as many digits as an integer may have. One job is more than that
by a number of one digit more. -/
def leastCount : Int := 1 - (Nat.pow 10 Number.maxDigits : Nat)

theorem untellable_leastCount : (asking leastCount).Untellable 1 := by
  refine ⟨leastCount, rfl, ?_⟩
  unfold leastCount
  generalize Nat.pow 10 Number.maxDigits = p
  omega

/-- The number of jobs is wrong, and yet there is no setup fault. -/
theorem miscounted_without_setup_fault :
    (asking leastCount).Miscounted [Checker.sampleJob].length ∧
      ∀ f, (((asking leastCount).suite [Checker.sampleJob]).run (Checker.saying [])
        (World.begin Checker.sampleDisk)).1 ≠ .error (.setup f) := by
  have hu := untellable_leastCount
  refine ⟨hu.miscounted, fun f hf => ?_⟩
  have hstart := (asking leastCount).suite_start [Checker.sampleJob] (Checker.saying [])
    (World.begin Checker.sampleDisk)
  generalize ((asking leastCount).suite [Checker.sampleJob]).run (Checker.saying [])
    (World.begin Checker.sampleDisk) = result at hstart hf
  cases hstart with
  | untold => cases hf
  | refused hu' => exact hu' hu
  | started hr => exact hr (.count hu.miscounted)

end Run

end Assay
