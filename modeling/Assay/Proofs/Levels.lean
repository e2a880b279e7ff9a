import Assay.Proofs.Halves
import Assay.Proofs.Setup

/-!
# Replay levels

The level of replay is one number of the configuration: with nothing to replay it is zero, and from
two on KLEE lists all its inputs and not only those of failing tests. `Run.atLevel` sets it, and
this module compares a run's verification at some level with that at level zero.

They go in step. What differs is only which inputs an outcome lists, `Outcome.Agrees`, and at level
one not even this; `tracks_verified` says so for everything up to the replays.
-/

namespace Assay

open Assay.Action

def Config.atLevel (c : Config) (n : Int) : Config :=
  { c with replay := n }

def Checker.atLevel (k : Checker) (n : Int) : Checker :=
  { k with config := k.config.atLevel n }

/-- The run with this level of replay, which a backend made beforehand has as well. -/
def Run.atLevel (r : Run) (n : Int) : Run :=
  { r with
    config := r.config.atLevel n
    prepared := r.prepared.map fun k => k.atLevel n }

/-- The two outcomes differ in nothing but the inputs that they list. -/
structure Outcome.Agrees (o o' : Outcome) : Prop where
  displayName : o.displayName = o'.displayName
  entrySymbol : o.entrySymbol = o'.entrySymbol
  verdict : o.verdict = o'.verdict
  expectation : o.expectation = o'.expectation
  error : o.error = o'.error
  stats : o.stats = o'.stats

/-- Outcomes of one job, the first of which was verified at this level and the second at level
zero. -/
structure Outcome.Matches (b : Backend) (n : Int) (o o' : Outcome) : Prop where
  agrees : o.Agrees o'
  same : n ≤ 1 → o = o'
  nothing : b ≠ .klee → o.counterexamples = []

/-- The suites have the same backend and sums, and their outcomes are related one for one. -/
structure Suite.Alike (P : Outcome → Outcome → Prop) (s s' : Suite) : Prop where
  backend : s.backend = s'.backend
  total : s.total = s'.total
  passed : s.passed = s'.passed
  failed : s.failed = s'.failed
  verdict : s.verdict = s'.verdict
  outcomes : List.Forall₂ P s.outcomes s'.outcomes

variable {h : Host} {n : Int} {b : Backend} {c : Config} {k : Checker} {job : Job} {output : Path}
  {capture : Capture}

/-! ## Counterexamples -/

namespace Counterexample

/-- At two levels KLEE's inputs are looked for in different ways, but at both of them they are found
or at none. -/
theorem tracks_collect (b : Backend) (c : Config) (n : Int) (output : Path) :
    Tracks h (fun l l' => (n ≤ 1 → l = l') ∧ (b ≠ .klee → l = []))
      (collect b (c.atLevel n) output) (collect b (c.atLevel 0) output) := by
  cases b with
  | klee =>
    show Tracks h _
      (if 1 < n then matching output inputTail
        else failures output >>= fun found => pure (Path.sort (found.map inputOf)))
      (failures output >>= fun found => pure (Path.sort (found.map inputOf)))
    by_cases hn : 1 < n
    · rw [if_pos hn]
      have hq : ∀ l l' : List Path, True → (n ≤ 1 → l = l') ∧ (Backend.klee ≠ .klee → l = []) :=
        fun l l' _ => ⟨fun hle => absurd hle (Int.not_le.mpr hn), fun hk => absurd rfl hk⟩
      by_cases ho : Unsearchable output
      · have hfail : ∀ tail, matching output tail = Action.fail .nullByte := fun tail =>
          if_pos (any_fixedParts_iff.mpr ho)
        unfold failures
        rw [hfail, hfail]
        exact Tracks.fail _
      · refine Tracks.mono (.talk (matching_returns ho _) keeps_matching ?_ ?_) hq
        · exact (failures_returns ho).seq fun _ => .pure trivial
        · exact (keeps_failures logFree_deeds).bind fun _ => .pure _
    · rw [if_neg hn]
      refine (Tracks.of_respects ((respects_failures output).bind fun _ => .pure _)).mono ?_
      rintro l _ rfl
      exact ⟨fun _ => rfl, fun hk => absurd rfl hk⟩
  | _ => exact Tracks.pure ⟨fun _ => rfl, fun _ => rfl⟩

end Counterexample

/-! ## One job -/

namespace Checker

/-- At two levels the second half of the work differs only in what is collected. -/
theorem tracks_evaluate_atLevel (hk : k.backend.IsVerifier) (job : Job) (output : Path)
    (capture : Capture) :
    Tracks h (Outcome.Matches k.backend n) ((k.atLevel n).evaluate job output capture)
      ((k.atLevel 0).evaluate job output capture) := by
  refine tracks_evaluate hk (Counterexample.tracks_collect k.backend k.config n output) ?_
  rintro v e stats l l' ⟨hsame, hnothing⟩
  refine ⟨⟨rfl, rfl, rfl, rfl, rfl, rfl⟩, fun hn => ?_, fun hb => ?_⟩
  · rw [hsame hn]
  · rw [hnothing hb]
    rfl

/-- The level plays no part before the evaluation. -/
theorem tracks_verify (hk : k.backend.IsVerifier) (job : Job) :
    Tracks h (Outcome.Matches k.backend n) ((k.atLevel n).verify job) ((k.atLevel 0).verify job) := by
  have hakin : Akin k.backend job (k.config.atLevel n) (k.config.atLevel 0) := by
    refine akin_of_verifier hk ?_ ?_ ?_ ?_ ?_ ?_ job <;> rfl
  have hsame : (k.atLevel n).capturing job = (k.atLevel 0).capturing job := capturing_congr hakin
  rw [verify_eq_capturing (k := k.atLevel n) hk, verify_eq_capturing (k := k.atLevel 0) hk, hsame]
  exact Tracks.after (respects_capturing _ _) fun c => tracks_evaluate_atLevel hk job c.1 c.2

end Checker

/-! ## A suite -/

namespace Suite

theorem alike_ofOutcomes {P : Outcome → Outcome → Prop} (hP : ∀ o o', P o o' → o.Agrees o')
    (name : String) {os os' : List Outcome} (ho : List.Forall₂ P os os') :
    Suite.Alike P (ofOutcomes name os) (ofOutcomes name os') := by
  have hverdicts : os.map Outcome.verdict = os'.map Outcome.verdict := by
    induction ho with
    | nil => rfl
    | cons hq _ ih => rw [List.map_cons, List.map_cons, (hP _ _ hq).verdict, ih]
  have hpassed : ∀ l : List Outcome,
      passedCount l = (l.map Outcome.verdict).countP Verdict.passed := fun l => by
    rw [List.countP_map]
    rfl
  have hverdict : ∀ l : List Outcome, verdictOf l =
      ((l.map Outcome.verdict).find? fun v => !v.passed).getD .verified := fun l => by
    rw [List.find?_map]
    rfl
  have hcount : passedCount os = passedCount os' := by
    rw [hpassed, hpassed, hverdicts]
  refine ⟨rfl, congrArg Nat.cast ho.length_eq, congrArg Nat.cast hcount, ?_, ?_, ho⟩
  · show (os.length : Int) - passedCount os = os'.length - passedCount os'
    rw [ho.length_eq, hcount]
  · show verdictOf os = verdictOf os'
    rw [hverdict, hverdict, hverdicts]

theorem Alike.mono {P P' : Outcome → Outcome → Prop} {s s' : Suite} (hs : Suite.Alike P s s')
    (hP : ∀ o o', P o o' → P' o o') : Suite.Alike P' s s' :=
  ⟨hs.backend, hs.total, hs.passed, hs.failed, hs.verdict, hs.outcomes.imp hP⟩

theorem Alike.exitCode {P : Outcome → Outcome → Prop} {s s' : Suite} (hs : Suite.Alike P s s') :
    s.exitCode = s'.exitCode := by
  unfold Suite.exitCode
  rw [hs.verdict]

/-- Whoever is not KLEE lists nothing. -/
theorem Alike.nothing {s s' : Suite} (hs : Suite.Alike (Outcome.Matches b n) s s')
    (hb : b ≠ .klee) : ∀ o ∈ s.outcomes, o.counterexamples = [] := by
  have houtcomes := hs.outcomes
  generalize s.outcomes = os, s'.outcomes = os' at houtcomes
  induction houtcomes with
  | nil => exact fun o ho => absurd ho List.not_mem_nil
  | cons hq _ ih =>
    intro o ho
    rcases List.mem_cons.mp ho with rfl | ho
    · exact hq.nothing hb
    · exact ih o ho

theorem Alike.eq {s s' : Suite} (hs : Suite.Alike Eq s s') : s = s' := by
  obtain ⟨hbackend, htotal, hpassed, hfailed, hverdict, houtcomes⟩ := hs
  rw [List.forall₂_eq_eq_eq] at houtcomes
  cases s
  cases s'
  dsimp only at hbackend htotal hpassed hfailed hverdict houtcomes
  rw [hbackend, htotal, hpassed, hfailed, hverdict, houtcomes]

end Suite

namespace Scheduler

variable {s s' : Scheduler}

theorem tracks_settle (hv : Tracks h (Outcome.Matches b n) (s.verify job) (s'.verify job)) :
    Tracks h (Outcome.Matches b n) (s.settle job) (s'.settle job) := by
  refine hv.attempt.bind fun r r' hr => ?_
  cases hr with
  | ok hq => exact Tracks.pure hq
  | error f =>
    refine Tracks.bind (.talk (s.logFault_returns job f) (s.keeps_deeds_logFault job f)
      (s'.logFault_returns job f) (s'.keeps_deeds_logFault job f)) fun _ _ _ => ?_
    exact Tracks.pure ⟨⟨rfl, rfl, rfl, rfl, rfl, rfl⟩, fun _ => rfl, fun _ => rfl⟩

theorem tracks_runOne (hv : Tracks h (Outcome.Matches b n) (s.verify job) (s'.verify job)) :
    Tracks h (Outcome.Matches b n) (s.runOne job) (s'.runOne job) := by
  refine (tracks_settle hv).bind fun o o' hq => ?_
  refine Tracks.bind (.talk (returns_print _) (keeps_deeds_print _) (returns_print _)
    (keeps_deeds_print _)) fun _ _ _ => ?_
  exact Tracks.pure hq

theorem tracks_run (hn : s.backendName = s'.backendName) {jobs : List Job}
    (hv : ∀ job ∈ jobs, Tracks h (Outcome.Matches b n) (s.verify job) (s'.verify job)) (p : Pool)
    (workers : Int) :
    Tracks h (fun t t' => Suite.Alike (Outcome.Matches b n) t.1 t'.1) (s.run p jobs workers)
      (s'.run p jobs workers) := by
  refine Tracks.after (.of_talk silent_sameDeeds (returns_print _) (keeps_deeds_print _)) fun _ => ?_
  refine Tracks.after (.ofExcept _) fun p' => ?_
  refine (Tracks.mapM jobs fun job hj => tracks_runOne (hv job hj)).bind fun os os' hos => ?_
  rw [hn]
  exact Tracks.pure (Suite.alike_ofOutcomes (fun _ _ hq => hq.agrees) _ hos)

end Scheduler

/-! ## A run up to its replays -/

namespace Run

variable {r : Run} {jobs : List Job} {w w' : World}

/-- All of a run but its replays: the backend and the jobs that it works with, and the suite. -/
def verified (r : Run) (jobs : List Job) : Action (Checker × List Job × Suite) := do
  let k ← r.prepare jobs.length
  let planned ← Action.ofExcept (plan .none k jobs)
  let suite ← r.verify .none k planned
  return (k, planned, suite)

/-- The replays of a run. -/
def replays (r : Run) (k : Checker) (jobs : List Job) (suite : Suite) : Action Unit :=
  if 0 < r.effective.replay then
    replayAll .none ⟨k.backend, r.effective, r.script⟩ jobs suite.outcomes
  else return ()

theorem suite_eq (r : Run) (jobs : List Job) :
    r.suite jobs = r.verified jobs >>= fun t => r.replays t.1 t.2.1 t.2.2 >>= fun _ =>
      pure t.2.2 := by
  unfold suite suiteWith verified
  simp only [bind_assoc, pure_bind]
  refine bind_congr fun k => bind_congr fun planned => bind_congr fun suite => ?_
  unfold replays
  split
  · rfl
  · rw [pure_bind]

theorem tracks_verify (hk : k.backend.IsVerifier) :
    Tracks h (Suite.Alike (Outcome.Matches k.backend n))
      ((r.atLevel n).verify .none (k.atLevel n) jobs)
      ((r.atLevel 0).verify .none (k.atLevel 0) jobs) := by
  let s (m : Int) : Scheduler := ⟨k.backendName, (k.atLevel m).verify, (r.atLevel m).effective⟩
  have hrun : Tracks h (fun t t' => Suite.Alike (Outcome.Matches k.backend n) t.1 t'.1)
      ((s n).run .absent jobs r.effective.jobs) ((s 0).run .absent jobs r.effective.jobs) := by
    have hname : (s n).backendName = (s 0).backendName := rfl
    exact Scheduler.tracks_run hname (fun job _ => Checker.tracks_verify hk job) _ _
  have hschedule : Tracks h (Suite.Alike (Outcome.Matches k.backend n))
      ((r.atLevel n).schedule .none (k.atLevel n) jobs)
      ((r.atLevel 0).schedule .none (k.atLevel 0) jobs) :=
    hrun.bind fun t t' ht => Tracks.pure ht
  have hprint : ∀ line line', Tracks h (fun _ _ => True) (printLine line) (printLine line') :=
    fun _ _ => .talk (returns_print _) (keeps_deeds_print _) (returns_print _) (keeps_deeds_print _)
  refine Tracks.after (x := announce jobs)
    (.of_talk silent_sameDeeds (returns_log _ _ _) (keeps_deeds_log _ _ _)) fun _ => ?_
  refine hschedule.bind fun suite suite' hs => ?_
  refine (hprint _ _).bind fun _ _ _ => (hprint _ _).bind fun _ _ _ => ?_
  refine Tracks.after (x := printElapsed r.effective "Verify") ?_ fun _ => Tracks.pure hs
  exact .ite (.of_talk silent_sameDeeds (returns_print _) (keeps_deeds_print _)) (.pure ())

theorem tracks_choose (hp : r.prepared = none) :
    Tracks h (fun b b' => b = b' ∧ r.Chooses h b) (Selection.choose r.choice r.effective)
      (Selection.choose r.choice r.effective) := by
  have hx : Respects h SameDeeds (Selection.choose r.choice r.effective) := by
    refine respects_host.bind fun host => ?_
    split
    · exact .ofExcept _
    · exact .bind (.of_talk silent_sameDeeds (returns_announce _ _) (keeps_deeds_announce _ _))
        fun _ => .pure _
  refine (Tracks.of_respects hx).holding fun w b w' hr => ?_
  rcases choose_cases hp r.effective h w with ⟨b', w₁, hc, hb, -⟩ | ⟨f, hc, -⟩
  · rw [hr, Prod.mk.injEq, Except.ok.injEq] at hc
    rw [hc.1]
    exact hb
  · rw [hr] at hc
    cases hc

/-- A run that goes on after its preparation with KLEE or SMACK. -/
theorem tracks_prepare (hb : ∀ b, r.Chooses h b → b = .klee ∨ b = .smack) (count : Nat) :
    Tracks h (fun k k' => ∃ k₀ : Checker, r.Chooses h k₀.backend ∧ k = k₀.atLevel n ∧
        k' = k₀.atLevel 0) ((r.atLevel n).prepare count) ((r.atLevel 0).prepare count) := by
  have hvalidate : ∀ b, r.Chooses h b → ∀ c, b.validate c = .ok () := by
    intro b hc c
    rcases hb b hc with rfl | rfl <;> rfl
  refine Tracks.after (x := Action.ofExcept (r.checkCount count)) (.ofExcept _) fun _ => ?_
  unfold checker
  cases hp : r.prepared with
  | some k =>
    have hprepared : ∀ m, (r.atLevel m).prepared = some (k.atLevel m) := fun m =>
      congrArg (Option.map fun k' : Checker => k'.atLevel m) hp
    have hok : ∀ m c, (k.atLevel m).backend.validate c = .ok () := fun m c =>
      hvalidate k.backend (.prepared hp) c
    rw [hprepared, hprepared]
    dsimp only
    rw [hok, hok]
    exact Tracks.pure ⟨k, .prepared hp, rfl, rfl⟩
  | none =>
    have hprepared : ∀ m, (r.atLevel m).prepared = none := fun m =>
      congrArg (Option.map fun k' : Checker => k'.atLevel m) hp
    rw [hprepared, hprepared]
    dsimp only
    unfold Selection.select
    simp only [bind_assoc]
    refine (tracks_choose hp).bind ?_
    rintro b _ ⟨rfl, hc⟩
    rw [hvalidate b hc, hvalidate b hc]
    exact Tracks.pure ⟨⟨b, r.effective, r.script⟩, hc, rfl, rfl⟩

/-- **Up to its replays a run goes in step with one that replays nothing.** -/
theorem tracks_verified (hb : ∀ b, r.Chooses h b → b = .klee ∨ b = .smack) (jobs : List Job) :
    Tracks h (fun t t' => r.Chooses h t.1.backend ∧
        Suite.Alike (Outcome.Matches t.1.backend n) t.2.2 t'.2.2)
      ((r.atLevel n).verified jobs) ((r.atLevel 0).verified jobs) := by
  refine (tracks_prepare hb _).bind ?_
  rintro _ _ ⟨k, hc, rfl, rfl⟩
  have hk : k.backend.IsVerifier := by
    rcases hb _ hc with he | he
    · exact Backend.isVerifier_iff.mpr (.inl he)
    · exact Backend.isVerifier_iff.mpr (.inr (.inr he))
  refine Tracks.after (x := Action.ofExcept (plan .none k jobs)) (.ofExcept _) fun planned => ?_
  exact (tracks_verify hk).bind fun suite suite' hs => Tracks.pure ⟨hc, hs⟩

end Run

end Assay
